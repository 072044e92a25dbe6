/-
Which org a wallet ends up in, over any interleaving of wallet provisioning with registrations and invites.

A provisioning holds the advisory lock of its address until it ends. An address with a wallet gets another wallet of the same
org. One without gets an org its own transaction inserts: an org named `wallet-<address>` that is there already belongs to a
registration, and then a fallback name is taken.
-/
import Teardrop.Signup.Sessions

namespace Teardrop.Signup

open SharedTable WalletCall List Stored

/-! ## Orgs, credits and wallets -/

/-- a wallet of address `a` (lower case), committed or not, belongs to org `o` -/
def Joined (db : Db) (a o : Text) : Prop := ∃ x ∈ db.wallets.rows, pgLower x.row.address = a ∧ x.row.orgId = o

/-- the machine spend limit is on the org's row of `org_credits` -/
def CreditRow.caps (site : Site) (r : CreditRow) (orgId : Text) : Prop :=
  r.orgId = orgId ∧ r.spendingLimitUsdc = site.machineOrgDailySpendLimitUsdc

/-- the org was not there before -/
def IsNew (db₀ : Db) (orgId : Text) : Prop := ∀ y ∈ db₀.orgs.rows, y.row.id ≠ orgId

/-- a database to start from: nothing pending, each address in one org, wallets and credits with their orgs, and every
machine org under a wallet's name with that wallet -/
structure Consistent (db : Db) : Prop where
  orgs : ∀ x ∈ db.orgs.rows, x.owner = none
  credits : ∀ x ∈ db.credits.rows, x.owner = none
  wallets : ∀ x ∈ db.wallets.rows, x.owner = none
  creditRefs : ∀ x ∈ db.credits.rows, ∃ y ∈ db.orgs.rows, y.row.id = x.row.orgId
  walletRefs : ∀ x ∈ db.wallets.rows, ∃ y ∈ db.orgs.rows, y.row.id = x.row.orgId
  one : ∀ a o o', Joined db a o → Joined db a o' → o = o'
  names : ∀ y ∈ db.orgs.rows, isMachine y.row.acquisitionSource → ∀ a, a.length = 42 → y.row.name = walletName a →
    ∃ o, Joined db a o

theorem Consistent.empty : Consistent {} := by
  constructor <;> simp [SharedTable.empty, Joined]

/-- the org a row refers to: committed, or of the same transaction -/
def RefersTo (db : Db) (owner : Option ℕ) (orgId : Text) : Prop :=
  ∃ y ∈ db.orgs.rows, y.row.id = orgId ∧ (y.owner = none ∨ y.owner = owner)

/-- what holds of orgs, credits and wallets in every state, whatever is pending -/
structure Base (site : Site) (db₀ db : Db) : Prop where
  kept : ∀ y ∈ db₀.orgs.rows, y ∈ db.orgs.rows
  creditRefs : ∀ x ∈ db.credits.rows, RefersTo db x.owner x.row.orgId
  walletRefs : ∀ x ∈ db.wallets.rows, RefersTo db x.owner x.row.orgId
  one : ∀ a o o', Joined db a o → Joined db a o' → o = o'
  apart : ∀ a b o, Joined db a o → Joined db b o → a = b ∨ (Joined db₀ a o ∧ Joined db₀ b o)
  fresh : ∀ a o, Joined db a o → (∃ o', Joined db₀ a o') ∨
    (IsNew db₀ o ∧ ∃ y ∈ db.orgs.rows, y.row.id = o ∧ isMachine y.row.acquisitionSource)
  names : ∀ y ∈ db.orgs.rows, y.owner = none → isMachine y.row.acquisitionSource → ∀ a, a.length = 42 →
    y.row.name = walletName a → ∃ x ∈ db.wallets.rows, x.owner = none ∧ pgLower x.row.address = a
  capped : ∀ y ∈ db.orgs.rows, y.owner = none → isMachine y.row.acquisitionSource → IsNew db₀ y.row.id →
    ∃ x ∈ db.credits.rows, x.owner = none ∧ x.row.caps site y.row.id

theorem Base.start (site : Site) {db : Db} (h : Consistent db) : Base site db db where
  kept _ hy := hy
  creditRefs x hx := by
    obtain ⟨y, hy, hid⟩ := h.creditRefs x hx
    exact ⟨y, hy, hid, .inl (h.orgs y hy)⟩
  walletRefs x hx := by
    obtain ⟨y, hy, hid⟩ := h.walletRefs x hx
    exact ⟨y, hy, hid, .inl (h.orgs y hy)⟩
  one := h.one
  apart _ _ _ ha hb := .inr ⟨ha, hb⟩
  fresh _ o ha := .inl ⟨o, ha⟩
  names y hy _ hm a ha hname := by
    obtain ⟨o, x, hx, hxa, -⟩ := h.names y hy hm a ha hname
    exact ⟨x, hx, h.wallets x hx, hxa⟩
  capped y hy _ _ hnew := absurd rfl (hnew y hy)

variable {orgId : Text}

theorem hasOrg_refers {db : Db} {i : ℕ} (h : db.hasOrg (some i) orgId) : RefersTo db (some i) orgId := by
  obtain ⟨r, hr, hk⟩ := taken_iff.1 h
  obtain ⟨y, hy, rfl, hown⟩ := mem_select.1 hr
  exact ⟨y, hy, by simpa [OrgRow.entries, eq_comm] using hk, hown⟩

section Writes

variable {site : Site} {db₀ db : Db} {i : ℕ}

theorem Base.congr {db' : Db} (h : Base site db₀ db) (horgs : db'.orgs = db.orgs) (hcredits : db'.credits = db.credits)
    (hwallets : db'.wallets = db.wallets) : Base site db₀ db' := by
  obtain ⟨kept, creditRefs, walletRefs, one, apart, fresh, names, capped⟩ := h
  constructor
  · rwa [horgs]
  · unfold RefersTo
    rwa [hcredits, horgs]
  · unfold RefersTo
    rwa [hwallets, horgs]
  · unfold Joined
    rwa [hwallets]
  · unfold Joined at apart ⊢
    rwa [hwallets]
  · unfold Joined at fresh ⊢
    rwa [hwallets, horgs]
  · rwa [hwallets, horgs]
  · rwa [hcredits, horgs]

theorem Base.org {o : OrgRow} {t : SharedTable OrgRow.entries} (h : Base site db₀ db)
    (ht : db.orgs.insert (some i) o = .done t) : Base site db₀ { db with orgs := t } where
  kept y hy := (mem_insert ht).2 (.inl (h.kept y hy))
  creditRefs x hx := by
    obtain ⟨y, hy, hid, hown⟩ := h.creditRefs x hx
    exact ⟨y, (mem_insert ht).2 (.inl hy), hid, hown⟩
  walletRefs x hx := by
    obtain ⟨y, hy, hid, hown⟩ := h.walletRefs x hx
    exact ⟨y, (mem_insert ht).2 (.inl hy), hid, hown⟩
  one := h.one
  apart := h.apart
  fresh a o' ha := by
    refine (h.fresh a o' ha).imp_right ?_
    rintro ⟨hnew, y, hy, hid, hm⟩
    exact ⟨hnew, y, (mem_insert ht).2 (.inl hy), hid, hm⟩
  names y hy hown := by
    rcases (mem_insert ht).1 hy with hy | rfl
    · exact h.names y hy hown
    · cases hown
  capped y hy hown := by
    rcases (mem_insert ht).1 hy with hy | rfl
    · exact h.capped y hy hown
    · cases hown

theorem Base.credit {r : CreditRow} {t : SharedTable CreditRow.entries} (h : Base site db₀ db)
    (horg : db.hasOrg (some i) r.orgId) (ht : db.credits.insert (some i) r = .done t) :
    Base site db₀ { db with credits := t } where
  kept := h.kept
  creditRefs x hx := by
    rcases (mem_insert ht).1 hx with hx | rfl
    · exact h.creditRefs x hx
    · exact hasOrg_refers horg
  walletRefs := h.walletRefs
  one := h.one
  apart := h.apart
  fresh := h.fresh
  names := h.names
  capped y hy hown hm hnew := by
    obtain ⟨x, hx, hcap⟩ := h.capped y hy hown hm hnew
    exact ⟨x, (mem_insert ht).2 (.inl hx), hcap⟩

/-- a new org: no wallet is in it -/
def Unjoined (db : Db) (o : Text) : Prop := ∀ b, ¬ Joined db b o

theorem joined_insert {x : WalletRow} {t : SharedTable WalletRow.entries} (ht : db.wallets.insert (some i) x = .done t)
    {a o : Text} : Joined { db with wallets := t } a o ↔ Joined db a o ∨ (pgLower x.address = a ∧ x.orgId = o) := by
  constructor
  · rintro ⟨y, hy, hya, hyo⟩
    rcases (mem_insert ht).1 hy with hy | rfl
    · exact .inl ⟨y, hy, hya, hyo⟩
    · exact .inr ⟨hya, hyo⟩
  · rintro (⟨y, hy, hya, hyo⟩ | ⟨ha, ho⟩)
    · exact ⟨y, (mem_insert ht).2 (.inl hy), hya, hyo⟩
    · exact ⟨⟨x, some i⟩, (mem_insert ht).2 (.inr rfl), ha, ho⟩

/-- a wallet is inserted, pending: of an address in its org, or the first of its address in a new machine org -/
theorem Base.wallet {x : WalletRow} {t : SharedTable WalletRow.entries} (h : Base site db₀ db)
    (horg : db.hasOrg (some i) x.orgId) (ht : db.wallets.insert (some i) x = .done t)
    (hjoin : Joined db (pgLower x.address) x.orgId ∨
      ((∀ o, ¬ Joined db (pgLower x.address) o) ∧ Unjoined db x.orgId ∧ IsNew db₀ x.orgId ∧
        ∃ y ∈ db.orgs.rows, y.row.id = x.orgId ∧ isMachine y.row.acquisitionSource)) :
    Base site db₀ { db with wallets := t } where
  kept := h.kept
  creditRefs := h.creditRefs
  walletRefs y hy := by
    rcases (mem_insert ht).1 hy with hy | rfl
    · exact h.walletRefs y hy
    · exact hasOrg_refers horg
  one a o o' ho ho' := by
    rw [joined_insert ht] at ho ho'
    rcases hjoin with hjoin | ⟨hnone, -⟩
    · rcases ho with ho | ⟨rfl, rfl⟩ <;> rcases ho' with ho' | ⟨ha', rfl⟩
      · exact h.one a o o' ho ho'
      · exact h.one a o _ ho (ha' ▸ hjoin)
      · exact h.one _ _ o' hjoin ho'
      · rfl
    · rcases ho with ho | ⟨rfl, rfl⟩ <;> rcases ho' with ho' | ⟨ha', rfl⟩
      · exact h.one a o o' ho ho'
      · exact absurd (ha' ▸ ho) (hnone o)
      · exact absurd ho' (hnone o')
      · rfl
  apart a b o ha hb := by
    rw [joined_insert ht] at ha hb
    rcases hjoin with hjoin | ⟨-, hun, -⟩
    · have ha : Joined db a o := ha.elim id (fun ⟨h1, h2⟩ => h1 ▸ h2 ▸ hjoin)
      have hb : Joined db b o := hb.elim id (fun ⟨h1, h2⟩ => h1 ▸ h2 ▸ hjoin)
      exact h.apart a b o ha hb
    · rcases ha with ha | ⟨rfl, rfl⟩ <;> rcases hb with hb | ⟨hb, ho⟩
      · exact h.apart a b o ha hb
      · exact absurd (ho ▸ ha) (hun a)
      · exact absurd hb (hun b)
      · exact .inl hb
  fresh a o ha := by
    rw [joined_insert ht] at ha
    rcases ha with ha | ⟨rfl, rfl⟩
    · exact h.fresh a o ha
    · rcases hjoin with hjoin | ⟨-, -, hnew, hm⟩
      · exact h.fresh _ _ hjoin
      · exact .inr ⟨hnew, hm⟩
  names y hy hown hm a ha hname := by
    obtain ⟨z, hz, hzown, hza⟩ := h.names y hy hown hm a ha hname
    exact ⟨z, (mem_insert ht).2 (.inl hz), hzown, hza⟩
  capped := h.capped

theorem joined_commit {a o : Text} : Joined (db.commit i) a o ↔ Joined db a o := by
  constructor
  · rintro ⟨x, hx, ha, ho⟩
    obtain ⟨y, hy, rfl⟩ := mem_commit.1 hx
    rw [settle_row] at ha ho
    exact ⟨y, hy, ha, ho⟩
  · rintro ⟨y, hy, ha, ho⟩
    exact ⟨y.settle i, mem_commit.2 ⟨y, hy, rfl⟩, by rwa [settle_row], by rwa [settle_row]⟩

variable {owner : Option ℕ} {y : Stored OrgRow}

theorem refersTo_commit (h : RefersTo db owner orgId) :
    RefersTo (db.commit i) (if owner = some i then none else owner) orgId := by
  obtain ⟨y, hy, hid, hown⟩ := h
  refine ⟨y.settle i, mem_commit.2 ⟨y, hy, rfl⟩, by rwa [settle_row], ?_⟩
  rw [settle_owner]
  rcases hown with hown | hown
  · left
    rw [hown]
    split_ifs <;> rfl
  · rw [hown]
    exact .inr rfl

/-- transaction `i` commits, with the wallet and the capped credits of each machine org it inserted -/
theorem Base.commit (h : Base site db₀ db) (hdb₀ : ∀ y ∈ db₀.orgs.rows, y.owner = none)
    (hnames : ∀ y ∈ db.orgs.rows, y.owner = some i → isMachine y.row.acquisitionSource →
      (∀ a, a.length = 42 → y.row.name = walletName a →
        ∃ x ∈ db.wallets.rows, x.owner = some i ∧ pgLower x.row.address = a) ∧
      ∃ x ∈ db.credits.rows, x.owner = some i ∧ x.row.caps site y.row.id) : Base site db₀ (db.commit i) where
  kept y hy := (SharedTable.ByTx.commit i db.orgs).committed (h.kept y hy) (hdb₀ y hy)
  creditRefs x hx := by
    obtain ⟨z, hz, rfl⟩ := mem_commit.1 hx
    rw [settle_row, settle_owner]
    exact refersTo_commit (h.creditRefs z hz)
  walletRefs x hx := by
    obtain ⟨z, hz, rfl⟩ := mem_commit.1 hx
    rw [settle_row, settle_owner]
    exact refersTo_commit (h.walletRefs z hz)
  one a o o' ho ho' := h.one a o o' (joined_commit.1 ho) (joined_commit.1 ho')
  apart a b o ha hb := h.apart a b o (joined_commit.1 ha) (joined_commit.1 hb)
  fresh a o ha := by
    refine (h.fresh a o (joined_commit.1 ha)).imp_right ?_
    rintro ⟨hnew, y, hy, hid, hm⟩
    exact ⟨hnew, y.settle i, mem_commit.2 ⟨y, hy, rfl⟩, by rwa [settle_row], by rwa [settle_row]⟩
  names y hy hown hm a ha hname := by
    obtain ⟨z, hz, rfl⟩ := mem_commit.1 hy
    rw [settle_row] at hm hname
    by_cases hi : z.owner = some i
    · obtain ⟨x, hx, hxown, hxa⟩ := (hnames z hz hi hm).1 a ha hname
      exact ⟨x.settle i, mem_commit.2 ⟨x, hx, rfl⟩, by rw [settle_owner, if_pos hxown], by rwa [settle_row]⟩
    · rw [settle_owner, if_neg hi] at hown
      obtain ⟨x, hx, hxown, hxa⟩ := h.names z hz hown hm a ha hname
      exact ⟨x, (SharedTable.ByTx.commit i db.wallets).committed hx hxown, hxown, hxa⟩
  capped y hy hown hm hnew := by
    obtain ⟨z, hz, rfl⟩ := mem_commit.1 hy
    rw [settle_row] at hm hnew ⊢
    by_cases hi : z.owner = some i
    · obtain ⟨x, hx, hxown, hcap⟩ := (hnames z hz hi hm).2
      exact ⟨x.settle i, mem_commit.2 ⟨x, hx, rfl⟩, by rw [settle_owner, if_pos hxown], by rwa [settle_row]⟩
    · rw [settle_owner, if_neg hi] at hown
      obtain ⟨x, hx, hxown, hcap⟩ := h.capped z hz hown hm hnew
      exact ⟨x, (SharedTable.ByTx.commit i db.credits).committed hx hxown, hxown, hcap⟩

theorem joined_rollback {a o : Text} (h : Joined (db.rollback i) a o) : Joined db a o := by
  obtain ⟨x, hx, ha, ho⟩ := h
  exact ⟨x, (mem_rollback.1 hx).1, ha, ho⟩

theorem refersTo_rollback (h : RefersTo db owner orgId) (hown : owner ≠ some i) : RefersTo (db.rollback i) owner orgId := by
  obtain ⟨y, hy, hid, hyown⟩ := h
  refine ⟨y, mem_rollback.2 ⟨hy, ?_⟩, hid, hyown⟩
  rcases hyown with hyown | hyown
  · rw [hyown]
    exact (Option.some_ne_none i).symm
  · rwa [hyown]

theorem org_of_id {z : Stored OrgRow} (hy : y ∈ db.orgs.rows) (hz : z ∈ db.orgs.rows) (hid : y.row.id = z.row.id) :
    y = z := by
  apply eq_of_entry hy hz (k := .id y.row.id)
  · simp [OrgRow.entries]
  · simp [OrgRow.entries, hid]

theorem refersTo_own (hy : y ∈ db.orgs.rows) (hown : y.owner = some i) (h : RefersTo db owner y.row.id) :
    owner = some i := by
  obtain ⟨z, hz, hid, hzown⟩ := h
  rw [org_of_id hz hy hid, hown] at hzown
  rcases hzown with hzown | hzown
  · cases hzown
  · exact hzown.symm

theorem Base.ownWallet (h : Base site db₀ db) (hy : y ∈ db.orgs.rows) (hown : y.owner = some i) {x : Stored WalletRow}
    (hx : x ∈ db.wallets.rows) (hid : x.row.orgId = y.row.id) : x.owner = some i :=
  refersTo_own hy hown (hid ▸ h.walletRefs x hx)

/-- transaction `i` is rolled back -/
theorem Base.rollback (h : Base site db₀ db) (hdb₀ : ∀ y ∈ db₀.orgs.rows, y.owner = none) :
    Base site db₀ (db.rollback i) where
  kept y hy := (SharedTable.ByTx.rollback i db.orgs).committed (h.kept y hy) (hdb₀ y hy)
  creditRefs x hx := by
    obtain ⟨hx, hown⟩ := mem_rollback.1 hx
    exact refersTo_rollback (h.creditRefs x hx) hown
  walletRefs x hx := by
    obtain ⟨hx, hown⟩ := mem_rollback.1 hx
    exact refersTo_rollback (h.walletRefs x hx) hown
  one a o o' ho ho' := h.one a o o' (joined_rollback ho) (joined_rollback ho')
  apart a b o ha hb := h.apart a b o (joined_rollback ha) (joined_rollback hb)
  fresh a o ha := by
    obtain ⟨x, hx, -, hxo⟩ := id ha
    obtain ⟨hx, hxown⟩ := mem_rollback.1 hx
    refine (h.fresh a o (joined_rollback ha)).imp_right ?_
    rintro ⟨hnew, y, hy, hid, hm⟩
    refine ⟨hnew, y, mem_rollback.2 ⟨hy, fun hown => ?_⟩, hid, hm⟩
    exact hxown (h.ownWallet hy hown hx (hxo.trans hid.symm))
  names y hy hown hm a ha hname := by
    obtain ⟨x, hx, hxown, hxa⟩ := h.names y (mem_rollback.1 hy).1 hown hm a ha hname
    exact ⟨x, (SharedTable.ByTx.rollback i db.wallets).committed hx hxown, hxown, hxa⟩
  capped y hy hown hm hnew := by
    obtain ⟨x, hx, hxown, hcap⟩ := h.capped y (mem_rollback.1 hy).1 hown hm hnew
    exact ⟨x, (SharedTable.ByTx.rollback i db.credits).committed hx hxown, hxown, hcap⟩

end Writes

/-! ## What a provisioning has established -/

section Stages

variable (site : Site) (db : Db) (c : WalletCall) (i : ℕ)

/-- transaction `i` has inserted no org -/
def NoOrg : Prop := ∀ x ∈ db.orgs.rows, x.owner ≠ some i

/-- transaction `i` has inserted no row of credits -/
def NoCredit : Prop := ∀ x ∈ db.credits.rows, x.owner ≠ some i

/-- nobody has a wallet of the address, committed or not -/
def NoWallet : Prop := ∀ x ∈ db.wallets.rows, ¬ c.isOf x.row

/-- a wallet of the address that transaction `i` sees is in the org -/
def InOrg (orgId : Text) : Prop :=
  ∃ x ∈ db.wallets.rows, (x.owner = none ∨ x.owner = some i) ∧ c.isOf x.row ∧ x.row.orgId = orgId

/-- the org is the one transaction `i` inserted, a machine org whose name fits no other address -/
structure Mine (o : OrgRow) : Prop where
  mem : ⟨o, some i⟩ ∈ db.orgs.rows
  only : ∀ x ∈ db.orgs.rows, x.owner = some i → x.row = o
  machine : isMachine o.acquisitionSource
  name : ∀ a, a.length = 42 → o.name = walletName a → a = pgLower c.text

/-- transaction `i` has inserted the org's credits with the limit -/
def Capped (o : OrgRow) : Prop := ∃ x ∈ db.credits.rows, x.owner = some i ∧ x.row.caps site o.id

/-- transaction `i` has inserted a wallet of the address in the org -/
def OwnWallet (orgId : Text) : Prop := ∃ x ∈ db.wallets.rows, x.owner = some i ∧ c.isOf x.row ∧ x.row.orgId = orgId

/-- before an org is there -/
def Bare : Prop := NoOrg db i ∧ NoCredit db i

/-- with the org of an address that has none yet -/
def Founded (o : OrgRow) : Prop := Mine db c i o ∧ NoWallet db c

def StageOk : Stage → Prop
  | .lock | .byChain | .anyChain => Bare db i
  | .note w | .owner w | .linked w => NoOrg db i ∧ InOrg db c i w.orgId
  | .orgByName | .insertOrg | .reselect | .fallback _ => Bare db i ∧ NoWallet db c
  | .user o | .insertUser o | .credits o _ false => Founded db c i o ∧ NoCredit db i
  | .wallet o _ false => Founded db c i o ∧ Capped site db i o
  | .credits o _ true | .wallet o _ true => NoOrg db i ∧ InOrg db c i o.id
  | .refetch => NoOrg db i
  | .event o _ _ => OwnWallet db c i o.id ∧ (NoOrg db i ∨ Mine db c i o ∧ Capped site db i o)
  | .commit r => InOrg db c i r.org.id ∧ (NoOrg db i ∨ ∃ o, Mine db c i o ∧ Capped site db i o ∧ OwnWallet db c i o.id)

end Stages

section Statements

variable {site : Site} {db₀ db : Db} {c : WalletCall} {i : ℕ} {d : Draw}

variable {w : WalletRow}

theorem isOf_iff : c.isOf w ↔ pgLower w.address = pgLower c.text := by
  simp [isOf]

theorem length_lower (c : WalletCall) : (pgLower c.text).length = 42 := by
  rw [c.text_eq, pgLower, length_map, c.address.length_eq]

theorem inOrg_of_mem {rows : List WalletRow} (hrows : rows ⊆ db.wallets.select (some i)) (hw : w ∈ rows) (hof : c.isOf w) :
    InOrg db c i w.orgId := by
  obtain ⟨x, hx, rfl, hown⟩ := mem_select.1 (hrows hw)
  exact ⟨x, hx, hown, hof, rfl⟩

variable {pick : ℕ} {s' : Stage} {o : OrgRow} {u : UserRow}

theorem onChain_inOrg (h : fetchrow pick (c.onChain (db.wallets.select (some i))) = some w) : InOrg db c i w.orgId := by
  have hw := mem_of_fetchrow h
  have hof := (mem_filter.1 hw).2
  rw [Bool.and_eq_true] at hof
  exact inOrg_of_mem (filter_sublist.subset) hw hof.1

theorem onAnyChain_inOrg (h : fetchrow pick (c.onAnyChain (db.wallets.select (some i))) = some w) :
    InOrg db c i w.orgId := by
  have hw := mem_of_fetchrow h
  have hof := (mem_filter.1 hw).2
  rw [Bool.and_eq_true] at hof
  exact inOrg_of_mem (filter_sublist.subset) hw hof.1

theorem onAnyChain_ne_nil {wallets : List WalletRow} (hw : w ∈ wallets) (hof : c.isOf w) : c.onAnyChain wallets ≠ [] := by
  have hne : wallets.filter c.isOf ≠ [] := ne_nil_of_mem (mem_filter.2 ⟨hw, hof⟩)
  match hm : argmin WalletRow.createdAt (wallets.filter c.isOf) with
  | none => exact absurd (argmin_eq_none.1 hm) hne
  | some m =>
    have hmem := argmin_mem (Option.mem_def.2 hm)
    refine ne_nil_of_mem (mem_filter.2 ⟨(mem_filter.1 hmem).1, ?_⟩)
    rw [Bool.and_eq_true, all_eq_true]
    exact ⟨(mem_filter.1 hmem).2, fun x hx => decide_eq_true (le_of_mem_argmin hx (Option.mem_def.2 hm))⟩

theorem gate_fallback (hb : Base site db₀ db) (hno : NoOrg db i) (hnw : NoWallet db c) :
    gate ((db.orgs.select (some i)).find? (fun o => o.name = walletName (c.addressLower site))) = .fallback 3 := by
  match hfind : (db.orgs.select (some i)).find? (fun o => o.name = walletName (c.addressLower site)) with
  | none => rw [hfind]; rfl
  | some o =>
    rw [hfind]
    obtain ⟨y, hy, rfl, hown⟩ := mem_select.1 (mem_of_find?_eq_some hfind)
    have hname : y.row.name = walletName (c.addressLower site) := by simpa using find?_some hfind
    have hown : y.owner = none := hown.resolve_right (hno y hy)
    refine if_neg (fun hm => ?_)
    rw [c.addressLower_eq] at hname
    obtain ⟨x, hx, -, hxa⟩ := hb.names y hy hown hm _ (length_lower c) hname
    exact hnw x hx (isOf_iff.2 hxa)

theorem walletName_inj {a b : Text} (h : walletName a = walletName b) : a = b := append_cancel_left h

theorem fallbackName_ne {hex a b : Text} (ha : a.length = 42) (hb : b.length = 42) : fallbackName hex a ≠ walletName b := by
  intro h
  unfold fallbackName walletName at h
  rw [append_assoc] at h
  have hlen := congrArg length (append_cancel_left h)
  rw [length_append, length_cons, ha, hb] at hlen
  omega

theorem mine_of_insert {id name : Text} {t : SharedTable OrgRow.entries} (hc : isMachine c.acquisitionSource)
    (hno : NoOrg db i) (hname : ∀ a, a.length = 42 → name = walletName a → a = pgLower c.text)
    (ht : db.orgs.insert (some i) (c.newOrg site id name) = .done t) :
    Mine { db with orgs := t } c i (c.newOrg site id name) where
  mem := (mem_insert ht).2 (.inr rfl)
  only x hx hown := by
    rcases (mem_insert ht).1 hx with hx | rfl
    · exact absurd hown (hno x hx)
    · rfl
  machine := hc
  name := hname

theorem insertOrgAs_ok {id name : Text} {s : Stage} {db' : Db} (hb : Base site db₀ db) (hc : isMachine c.acquisitionSource)
    (hbare : Bare db i) (hnw : NoWallet db c) (hname : ∀ a, a.length = 42 → name = walletName a → a = pgLower c.text)
    (hs : StageOk site db c i s) (h : c.insertOrgAs site i id name db s = .next db' s') :
    Base site db₀ db' ∧ StageOk site db' c i s' := by
  unfold insertOrgAs at h
  split at h
  · rename_i t ht
    cases h
    exact ⟨hb.org ht, ⟨mine_of_insert hc hbare.1 hname ht, hnw⟩, hbare.2⟩
  · cases h
    exact ⟨hb, hs⟩
  · cases h

theorem credits_founded {db' : Db} (hb : Base site db₀ db) (hf : Founded db c i o) (hno : NoCredit db i)
    (h : c.statement site i d db (.credits o u false) = .next db' s') : Base site db₀ db' ∧ StageOk site db' c i s' := by
  simp only [statement] at h
  split_ifs at h with horg
  have hnew : (newCredit site o).orgId = o.id := by
    unfold newCredit
    split_ifs <;> rfl
  split at h
  · rename_i t ht
    cases h
    refine ⟨hb.credit (by rwa [hnew]) ht, ⟨⟨hf.1.mem, hf.1.only, hf.1.machine, hf.1.name⟩, hf.2⟩, _,
      (mem_insert ht).2 (.inr rfl), rfl, hnew, ?_⟩
    simp [newCredit, if_pos hf.1.machine]
  · rename_i ht
    -- a row of credits that is there would refer to the pending org, and be the transaction's own
    obtain ⟨r, hr, k, hk, hk'⟩ := insert_conflict ht
    obtain ⟨x, hx, rfl, -⟩ := mem_select.1 hr
    rw [CreditRow.entries, mem_singleton, hnew] at hk
    rw [CreditRow.entries, mem_singleton, hk] at hk'
    have hown := refersTo_own hf.1.mem rfl (by rw [hk']; exact hb.creditRefs x hx)
    exact absurd hown (hno x hx)
  · cases h

theorem newWallet_isOf (id : Text) (o : OrgRow) (u : UserRow) : c.isOf (c.newWallet id o u) := isOf_iff.2 rfl

/-- the pending wallets of transaction `i` are of its address, and those of its address are its own -/
structure Wards (db : Db) (c : WalletCall) (i : ℕ) : Prop where
  own : ∀ x ∈ db.wallets.rows, x.owner = some i → c.isOf x.row
  free : ∀ x ∈ db.wallets.rows, c.isOf x.row → x.owner = none ∨ x.owner = some i

theorem Mine.isNew (h : Mine db c i o) (hb : Base site db₀ db) (hdb₀ : ∀ y ∈ db₀.orgs.rows, y.owner = none) :
    IsNew db₀ o.id := by
  intro y hy hid
  have hsame := org_of_id (hb.kept y hy) h.mem hid
  have hnone := hdb₀ y hy
  rw [hsame] at hnone
  cases hnone

theorem wallet_ok {linked : Bool} {db' : Db} (hb : Base site db₀ db) (hdb₀ : ∀ y ∈ db₀.orgs.rows, y.owner = none)
    (hw : Wards db c i) (hs : StageOk site db c i (.wallet o u linked))
    (h : c.statement site i d db (.wallet o u linked) = .next db' s') : Base site db₀ db' ∧ StageOk site db' c i s' := by
  unfold statement at h
  dsimp only at h
  split at h
  · cases h
  · rename_i hrefs
    rw [not_not] at hrefs
    split at h
    · rename_i t ht
      cases h
      have hown : OwnWallet { db with wallets := t } c i o.id :=
        ⟨_, (mem_insert ht).2 (.inr rfl), rfl, newWallet_isOf d.id o u, rfl⟩
      cases linked with
      | true =>
        obtain ⟨hno, x, hx, -, hof, horg⟩ := hs
        exact ⟨hb.wallet hrefs.1 ht (.inl ⟨x, hx, isOf_iff.1 hof, horg⟩), hown, .inl hno⟩
      | false =>
        obtain ⟨⟨hmine, hnw⟩, hcap⟩ := hs
        refine ⟨hb.wallet hrefs.1 ht (.inr ⟨?_, ?_, hmine.isNew hb hdb₀, _, hmine.mem, rfl, hmine.machine⟩), hown,
          .inr ⟨⟨hmine.mem, hmine.only, hmine.machine, hmine.name⟩, hcap⟩⟩
        · rintro o' ⟨x, hx, hxa, -⟩
          exact hnw x hx (isOf_iff.2 hxa)
        · -- a wallet in the transaction's own org would be its own, and it has inserted none
          rintro b ⟨x, hx, -, hxo⟩
          exact hnw x hx (hw.own x hx (hb.ownWallet hmine.mem rfl hx hxo))
    · split at h
      · rename_i htaken
        cases h
        cases linked with
        | true => exact ⟨hb, hs.1⟩
        | false =>
          obtain ⟨r, hr, hk⟩ := taken_iff.1 htaken
          obtain ⟨x, hx, rfl, -⟩ := mem_select.1 hr
          have hplace : c.text = x.row.address ∧ c.chainId = x.row.chainId := by simpa [WalletRow.entries] using hk
          exact absurd (isOf_iff.2 (by rw [hplace.1])) (hs.1.2 x hx)
      · cases h
    · cases h

theorem ownerOf_org (h : ownerOf db i w = some (o, u)) : o.id = w.orgId := by
  obtain ⟨o', ho', h⟩ := Option.bind_eq_some_iff.1 h
  obtain ⟨u', -, h⟩ := Option.map_eq_some_iff.1 h
  cases h
  simpa using find?_some ho'

/-- without a visible wallet of the address there is none, since the lock keeps the others out -/
theorem noWallet_of_none (hw : Wards db c i) (h : fetchrow pick (c.onAnyChain (db.wallets.select (some i))) = none) :
    NoWallet db c := by
  intro x hx hof
  have hsel : x.row ∈ db.wallets.select (some i) := mem_select.2 ⟨x, hx, rfl, hw.free x hx hof⟩
  exact onAnyChain_ne_nil hsel hof (fetchrow_eq_none.1 h)

/-- **One statement**, from what the provisioning has established to what it establishes. -/
theorem statement_local {s : Stage} {db' : Db} (hb : Base site db₀ db) (hdb₀ : ∀ y ∈ db₀.orgs.rows, y.owner = none)
    (hc : isMachine c.acquisitionSource) (hw : Wards db c i) (hs : StageOk site db c i s)
    (h : c.statement site i d db s = .next db' s') : Base site db₀ db' ∧ StageOk site db' c i s' := by
  match s with
  | .lock =>
    cases h
    exact ⟨hb, hs⟩
  | .byChain =>
    simp only [statement] at h
    split at h
    · rename_i w hfetch
      cases h
      refine ⟨hb, ?_⟩
      split_ifs <;> exact ⟨hs.1, onChain_inOrg hfetch⟩
    · cases h
      exact ⟨hb, hs⟩
  | .note w =>
    simp only [statement] at h
    split_ifs at h with horg
    split at h
    · cases h
      exact ⟨hb.congr rfl rfl rfl, hs⟩
    · cases h
      exact ⟨hb, hs⟩
    · cases h
  | .owner w =>
    simp only [statement] at h
    split at h
    · rename_i o u howner
      cases h
      refine ⟨hb, ?_, .inl hs.1⟩
      rw [ownerOf_org howner]
      exact hs.2
    · cases h
  | .anyChain =>
    simp only [statement] at h
    split at h
    · rename_i w hfetch
      cases h
      exact ⟨hb, hs.1, onAnyChain_inOrg hfetch⟩
    · rename_i hfetch
      cases h
      exact ⟨hb, hs, noWallet_of_none hw hfetch⟩
  | .linked w =>
    simp only [statement] at h
    split at h
    · rename_i o u howner
      cases h
      refine ⟨hb, hs.1, ?_⟩
      rw [ownerOf_org howner]
      exact hs.2
    · cases h
  | .orgByName =>
    have hgate := gate_fallback hb hs.1.1 hs.2
    simp only [statement] at h
    split at h
    · rename_i o hfind
      rw [hfind] at hgate
      rw [hgate] at h
      cases h
      exact ⟨hb, hs⟩
    · cases h
      exact ⟨hb, hs⟩
  | .insertOrg =>
    refine insertOrgAs_ok (s := .reselect) hb hc hs.1 hs.2 (fun a _ hname => ?_) hs h
    rw [← c.addressLower_eq site]
    exact (walletName_inj hname).symm
  | .reselect =>
    simp only [statement] at h
    rw [gate_fallback hb hs.1.1 hs.2] at h
    cases h
    exact ⟨hb, hs⟩
  | .fallback 0 => cases h
  | .fallback (left + 1) =>
    refine insertOrgAs_ok (s := .fallback left) hb hc hs.1 hs.2 (fun a ha hname => ?_) hs h
    exact absurd hname (fallbackName_ne (by rw [c.addressLower_eq, length_lower]) ha)
  | .user o =>
    simp only [statement] at h
    split at h
    all_goals
      cases h
      exact ⟨hb, hs⟩
  | .insertUser o =>
    simp only [statement] at h
    split_ifs at h with horg
    split at h
    · cases h
      exact ⟨hb.congr rfl rfl rfl, ⟨⟨hs.1.1.mem, hs.1.1.only, hs.1.1.machine, hs.1.1.name⟩, hs.1.2⟩, hs.2⟩
    · cases h
    · cases h
  | .credits o u false => exact credits_founded hb hs.1 hs.2 h
  | .credits o u true =>
    simp only [statement] at h
    split_ifs at h with horg
    split at h
    · rename_i t ht
      cases h
      refine ⟨hb.credit ?_ ht, hs⟩
      unfold newCredit
      split_ifs <;> exact horg
    · cases h
      exact ⟨hb, hs⟩
    · cases h
  | .wallet o u linked => exact wallet_ok hb hdb₀ hw hs h
  | .refetch =>
    simp only [statement] at h
    split at h
    · rename_i w hfetch
      cases h
      exact ⟨hb, hs, onChain_inOrg hfetch⟩
    · cases h
  | .event o u w =>
    simp only [statement] at h
    split_ifs at h with horg
    split at h
    · cases h
      obtain ⟨⟨x, hx, hown, hof, hxo⟩, hcase⟩ := hs
      refine ⟨hb.congr rfl rfl rfl, ⟨x, hx, .inr hown, hof, hxo⟩, hcase.imp_right ?_⟩
      rintro ⟨hmine, hcap⟩
      exact ⟨o, ⟨hmine.mem, hmine.only, hmine.machine, hmine.name⟩, hcap, x, hx, hown, hof, hxo⟩
    · cases h
    · cases h
  | .commit r => cases h

theorem commit_ok {r : Provisioned} (hb : Base site db₀ db) (hdb₀ : ∀ y ∈ db₀.orgs.rows, y.owner = none)
    (hs : StageOk site db c i (.commit r)) : Base site db₀ (db.commit i) := by
  refine hb.commit hdb₀ (fun y hy hown hm => ?_)
  rcases hs.2 with hno | ⟨o, hmine, ⟨x, hx, hxown, hcap⟩, x', hx', hxown', hof, -⟩
  · exact absurd hown (hno y hy)
  · rw [hmine.only y hy hown]
    refine ⟨fun a ha hname => ⟨x', hx', hxown', ?_⟩, x, hx, hxown, hcap⟩
    rw [hmine.name a ha hname]
    exact isOf_iff.1 hof

end Statements

/-! ## Every interleaving -/

/-- the wallet of an address is committed in the org -/
def Settled (db : Db) (c : WalletCall) (orgId : Text) : Prop :=
  ∃ x ∈ db.wallets.rows, x.owner = none ∧ c.isOf x.row ∧ x.row.orgId = orgId

def TaskOk (site : Site) (db : Db) (i : ℕ) : Task → Prop
  | .provision c s => isMachine c.acquisitionSource = true ∧ StageOk site db c i s
  | .provisioned c r => NoOrg db i ∧ Settled db c r.org.id
  | .register _ r s => isMachine r.acquisitionSource = false ∧
    (∀ x ∈ db.orgs.rows, x.owner = some i → isMachine x.row.acquisitionSource = false) ∧
    match s with
    | .insertOrg => True
    | .insertUser o => ⟨o, some i⟩ ∈ db.orgs.rows
    | .commit u => ∃ o, ⟨o, some i⟩ ∈ db.orgs.rows ∧ o.id = u.orgId
  | .accept _ _ | .raised _ | .responded _ _ => NoOrg db i

variable {db' : Db} {t : Task} {s : Stage}

/-- task `j` is left alone by a step of transaction `i` that brings no wallet of its address -/
theorem TaskOk.frame {site : Site} {db : Db} {i j : ℕ} (hj : j ≠ i) (horgs : SharedTable.ByTx i db.orgs db'.orgs)
    (hcredits : SharedTable.ByTx i db.credits db'.credits) (hwallets : SharedTable.ByTx i db.wallets db'.wallets)
    (hnew : ∀ c s, t = .provision c s → s ≠ .lock → NoWallet db c → NoWallet db' c) (h : TaskOk site db j t) :
    TaskOk site db' j t := by
  have hnoOrg : NoOrg db j → NoOrg db' j := fun hno x hx hown => hno x (horgs.old x hx j hj hown) hown
  have hnoCredit : NoCredit db j → NoCredit db' j := fun hno x hx hown => hno x (hcredits.old x hx j hj hown) hown
  have hin : ∀ {c o}, InOrg db c j o → InOrg db' c j o := by
    rintro c o ⟨x, hx, hown, hof, hxo⟩
    refine ⟨x, ?_, hown, hof, hxo⟩
    rcases hown with hown | hown
    · exact hwallets.committed hx hown
    · exact hwallets.others hj hx hown
  have hmine : ∀ {c o}, Mine db c j o → Mine db' c j o := by
    intro c o hm
    refine ⟨horgs.others hj hm.mem rfl, fun x hx hown => ?_, hm.machine, hm.name⟩
    exact hm.only x (horgs.old x hx j hj hown) hown
  have hcap : ∀ {o}, Capped site db j o → Capped site db' j o := by
    rintro o ⟨x, hx, hown, hcap⟩
    exact ⟨x, hcredits.others hj hx hown, hown, hcap⟩
  have hown : ∀ {c o}, OwnWallet db c j o → OwnWallet db' c j o := by
    rintro c o ⟨x, hx, hown, hof, hxo⟩
    exact ⟨x, hwallets.others hj hx hown, hown, hof, hxo⟩
  match t with
  | .provision c s =>
    have hnw : s ≠ .lock → NoWallet db c → NoWallet db' c := hnew c s rfl
    refine ⟨h.1, ?_⟩
    have hs := h.2
    match s with
    | .lock | .byChain | .anyChain => exact ⟨hnoOrg hs.1, hnoCredit hs.2⟩
    | .note w | .owner w | .linked w => exact ⟨hnoOrg hs.1, hin hs.2⟩
    | .orgByName | .insertOrg | .reselect | .fallback _ =>
      exact ⟨⟨hnoOrg hs.1.1, hnoCredit hs.1.2⟩, hnw (by simp) hs.2⟩
    | .user o | .insertUser o | .credits o _ false => exact ⟨⟨hmine hs.1.1, hnw (by simp) hs.1.2⟩, hnoCredit hs.2⟩
    | .wallet o _ false => exact ⟨⟨hmine hs.1.1, hnw (by simp) hs.1.2⟩, hcap hs.2⟩
    | .credits o _ true | .wallet o _ true => exact ⟨hnoOrg hs.1, hin hs.2⟩
    | .refetch => exact hnoOrg hs
    | .event o _ _ => exact ⟨hown hs.1, hs.2.imp hnoOrg (fun h => ⟨hmine h.1, hcap h.2⟩)⟩
    | .commit r =>
      exact ⟨hin hs.1, hs.2.imp hnoOrg (fun ⟨o, h1, h2, h3⟩ => ⟨o, hmine h1, hcap h2, hown h3⟩)⟩
  | .provisioned c r =>
    obtain ⟨hno, x, hx, hxown, hof, hxo⟩ := h
    exact ⟨hnoOrg hno, x, hwallets.committed hx hxown, hxown, hof, hxo⟩
  | .register given r s =>
    obtain ⟨hr, horg, hs⟩ := h
    refine ⟨hr, fun x hx hxown => horg x (horgs.old x hx j hj hxown) hxown, ?_⟩
    match s with
    | .insertOrg => trivial
    | .insertUser o => exact horgs.others hj hs rfl
    | .commit u =>
      obtain ⟨o, ho, hid⟩ := hs
      exact ⟨o, horgs.others hj ho rfl, hid⟩
  | .accept _ _ | .raised _ | .responded _ _ => exact hnoOrg h

structure Sound (site : Site) (db₀ : Db) (w : World) : Prop where
  locks : Locks.Exclusive (Task.lock site) w.tasks
  base : Base site db₀ w.db
  /-- a pending wallet is of the address whose lock its transaction holds -/
  owned : ∀ x ∈ w.db.wallets.rows, ∀ i, x.owner = some i →
    ∃ c s, w.tasks[i]? = some (.provision c s) ∧ s ≠ .lock ∧ c.isOf x.row
  orgs : ∀ x ∈ w.db.orgs.rows, ∀ i, x.owner = some i → i < w.tasks.length
  credits : ∀ x ∈ w.db.credits.rows, ∀ i, x.owner = some i → i < w.tasks.length
  tasks : ∀ i t, w.tasks[i]? = some t → TaskOk site w.db i t
  human : ∀ m ∈ w.made, m.invite = none →
    ∃ y ∈ w.db.orgs.rows, y.owner = none ∧ y.row.id = m.orgId ∧ isMachine y.row.acquisitionSource = false

theorem lock_eq (site : Site) (c : WalletCall) (hs : s ≠ .lock) :
    Task.lock site (.provision c s) = some (site.lockHash (pgLower c.text)) := by
  rw [← c.addressLower_eq site]
  match s with
  | .lock => exact absurd rfl hs
  | .byChain | .note _ | .owner _ | .anyChain | .linked _ | .orgByName | .insertOrg | .reselect | .fallback _ | .user _
  | .insertUser _ | .credits _ _ _ | .wallet _ _ _ | .refetch | .event _ _ _ | .commit _ => rfl

namespace Sound

variable {site : Site} {db₀ : Db} {w : World} {i : ℕ}

theorem other_address (h : Sound site db₀ w) {j : ℕ} (hij : j ≠ i) {c c' : WalletCall} {s' : Stage}
    (hi : w.tasks[i]? = some (.provision c s)) (hs : s ≠ .lock) (hj : w.tasks[j]? = some (.provision c' s'))
    (hs' : s' ≠ .lock) : pgLower c'.text ≠ pgLower c.text := by
  intro heq
  have hleft : Task.provision c' s' ∈ w.tasks.eraseIdx i := mem_eraseIdx_iff_getElem?.2 ⟨j, hij, hj⟩
  apply h.locks.apart hi (lock_eq site c hs) _ hleft
  rw [lock_eq site c' hs', heq]

theorem wards (h : Sound site db₀ w) {c : WalletCall} (hi : w.tasks[i]? = some (.provision c s)) (hs : s ≠ .lock) :
    Wards w.db c i where
  own x hx hown := by
    obtain ⟨c', s', hi', -, hof⟩ := h.owned x hx i hown
    rw [hi] at hi'
    cases hi'
    exact hof
  free x hx hof := by
    match hown : x.owner with
    | none => exact .inl rfl
    | some j =>
      by_cases hij : j = i
      · exact .inr (by rw [hij])
      · obtain ⟨c', s', hj, hs', hof'⟩ := h.owned x hx j hown
        exact absurd ((isOf_iff.1 hof').symm.trans (isOf_iff.1 hof)) (h.other_address hij hi hs hj hs')

variable {t' : Task}

/-- task `i` moves on: what it changes is its own, and what it claims is so -/
theorem advance {made : List Account} (h : Sound site db₀ w) (hi : w.tasks[i]? = some t) (hb : Base site db₀ db')
    (horgs : SharedTable.ByTx i w.db.orgs db'.orgs) (hcredits : SharedTable.ByTx i w.db.credits db'.credits)
    (hwallets : SharedTable.ByTx i w.db.wallets db'.wallets)
    (hnew : ∀ x ∈ db'.wallets.rows, (∃ y ∈ w.db.wallets.rows, y.row = x.row) ∨ ∃ c s, t = .provision c s ∧ s ≠ .lock ∧ c.isOf x.row)
    (howned : ∀ x ∈ db'.wallets.rows, x.owner = some i → ∃ c s, t' = .provision c s ∧ s ≠ .lock ∧ c.isOf x.row)
    (hlock : Locks.Exclusive (Task.lock site) (w.tasks.set i t')) (ht' : TaskOk site db' i t')
    (hmade : ∀ m ∈ made, m.invite = none → m ∈ w.made ∨ ∃ y ∈ db'.orgs.rows, y.owner = none ∧ y.row.id = m.orgId ∧ isMachine y.row.acquisitionSource = false) :
    Sound site db₀ { db := db', tasks := w.tasks.set i t', made := made } where
  locks := hlock
  base := hb
  owned x hx j hown := by
    by_cases hij : j = i
    · subst hij
      obtain ⟨c, s, rfl, hs, hof⟩ := howned x hx hown
      exact ⟨c, s, List.getElem?_set_self (List.getElem?_eq_some_iff.1 hi).1, hs, hof⟩
    · obtain ⟨c, s, hj, hs⟩ := h.owned x (hwallets.old x hx j hij hown) j hown
      exact ⟨c, s, by rw [getElem?_set_ne (Ne.symm hij)]; exact hj, hs⟩
  orgs x hx j hown := by
    rw [length_set]
    by_cases hij : j = i
    · rw [hij]
      exact (List.getElem?_eq_some_iff.1 hi).1
    · exact h.orgs x (horgs.old x hx j hij hown) j hown
  credits x hx j hown := by
    rw [length_set]
    by_cases hij : j = i
    · rw [hij]
      exact (List.getElem?_eq_some_iff.1 hi).1
    · exact h.credits x (hcredits.old x hx j hij hown) j hown
  tasks j tj hj := by
    rw [getElem?_set] at hj
    split_ifs at hj with hij hlt
    · subst hij
      obtain rfl := Option.some.inj hj
      exact ht'
    · refine TaskOk.frame (Ne.symm hij) horgs hcredits hwallets ?_ (h.tasks j tj hj)
      rintro cj sj rfl hsj hnw x hx hof
      rcases hnew x hx with ⟨y, hy, hrow⟩ | ⟨c, s, rfl, hs, hof'⟩
      · exact hnw y hy (by rwa [hrow])
      · exact h.other_address (Ne.symm hij) hi hs hj hsj ((isOf_iff.1 hof).symm.trans (isOf_iff.1 hof'))
  human m hm hinv := by
    rcases hmade m hm hinv with hm | hy
    · obtain ⟨y, hy, hown, hid⟩ := h.human m hm hinv
      exact ⟨y, horgs.committed hy hown, hown, hid⟩
    · exact hy

theorem abort (h : Sound site db₀ w) (hdb₀ : ∀ y ∈ db₀.orgs.rows, y.owner = none) (hi : w.tasks[i]? = some t)
    (hlock : t'.lock site = none) (ht' : ∀ db, NoOrg db i → TaskOk site db i t') : Sound site db₀ (w.abort i t') := by
  refine h.advance hi (h.base.rollback hdb₀) (.rollback i _) (.rollback i _) (.rollback i _) ?_ ?_
    (h.locks.release hi hlock) (ht' _ ?_) (fun m hm _ => .inl hm)
  · exact fun x hx => .inl ⟨x, (mem_rollback.1 hx).1, rfl⟩
  · exact fun x hx hown => absurd hown (mem_rollback.1 hx).2
  · exact fun x hx => (mem_rollback.1 hx).2

theorem still {new : List Account} (h : Sound site db₀ w) (hi : w.tasks[i]? = some t) (horgs : db'.orgs = w.db.orgs)
    (hcredits : db'.credits = w.db.credits) (hwallets : db'.wallets = w.db.wallets)
    (howned : ∀ c s, t = .provision c s → ∃ s', t' = .provision c s' ∧ s' ≠ .lock)
    (hlock : Locks.Exclusive (Task.lock site) (w.tasks.set i t')) (ht' : TaskOk site db' i t')
    (hnew : ∀ m ∈ new, m.invite ≠ none) :
    Sound site db₀ { db := db', tasks := w.tasks.set i t', made := w.made ++ new } := by
  refine h.advance hi (h.base.congr horgs hcredits hwallets) (horgs ▸ .refl i _) (hcredits ▸ .refl i _)
    (hwallets ▸ .refl i _) ?_ ?_ hlock ht' ?_
  · rw [hwallets]
    exact fun x hx => .inl ⟨x, hx, rfl⟩
  · rw [hwallets]
    intro x hx hown
    obtain ⟨c, s, hc, -, hof⟩ := h.owned x hx i hown
    rw [hi, Option.some.injEq] at hc
    obtain ⟨s', ht, hs'⟩ := howned c s hc
    exact ⟨c, s', ht, hs', hof⟩
  · intro m hm hinv
    rcases mem_append.1 hm with hm | hm
    · exact .inl hm
    · exact absurd hinv (hnew m hm)

theorem put (h : Sound site db₀ w) (hi : w.tasks[i]? = some t) (horgs : db'.orgs = w.db.orgs)
    (hcredits : db'.credits = w.db.credits) (hwallets : db'.wallets = w.db.wallets)
    (howned : ∀ c s, t = .provision c s → ∃ s', t' = .provision c s' ∧ s' ≠ .lock)
    (hlock : Locks.Exclusive (Task.lock site) (w.tasks.set i t')) (ht' : TaskOk site db' i t') :
    Sound site db₀ (w.put i db' t') := by
  have hnew := h.still hi horgs hcredits hwallets howned hlock ht' (forall_mem_nil _)
  rwa [append_nil] at hnew

theorem commit {new : List Account} (h : Sound site db₀ w) (hi : w.tasks[i]? = some t) (hb : Base site db₀ (w.db.commit i))
    (hlock : t'.lock site = none) (ht' : NoOrg (w.db.commit i) i → TaskOk site (w.db.commit i) i t')
    (hnew : ∀ m ∈ new, m.invite = none → ∃ y ∈ (w.db.commit i).orgs.rows, y.owner = none ∧ y.row.id = m.orgId ∧ isMachine y.row.acquisitionSource = false) :
    Sound site db₀ { db := w.db.commit i, tasks := w.tasks.set i t', made := w.made ++ new } := by
  have hgone : ∀ {K R : Type} {entries : R → List K} {table : SharedTable entries}, ∀ x ∈ (table.commit i).rows,
      x.owner ≠ some i := by
    intro K R entries table x hx hown
    obtain ⟨y, -, rfl⟩ := mem_commit.1 hx
    rw [settle_owner] at hown
    split_ifs at hown with hy
    exact hy hown
  refine h.advance hi hb (.commit i _) (.commit i _) (.commit i _) ?_ ?_ (h.locks.release hi hlock)
    (ht' (fun x hx => hgone x hx)) ?_
  · intro x hx
    obtain ⟨y, hy, rfl⟩ := mem_commit.1 hx
    exact .inl ⟨y, hy, (settle_row i y).symm⟩
  · exact fun x hx hown => absurd hown (hgone x hx)
  · intro m hm hinv
    rcases mem_append.1 hm with hm | hm
    · exact .inl hm
    · exact .inr (hnew m hm hinv)

end Sound

theorem Provides.byTx {site : Site} {c : WalletCall} {i : ℕ} {db : Db} (h : Provides site c i db db') :
    SharedTable.ByTx i db.orgs db'.orgs ∧ SharedTable.ByTx i db.credits db'.credits ∧
      SharedTable.ByTx i db.wallets db'.wallets := by
  cases h with
  | nothing | user | event => exact ⟨.refl i _, .refl i _, .refl i _⟩
  | org id name h => exact ⟨.insert h, .refl i _, .refl i _⟩
  | credit o horg h => exact ⟨.refl i _, .insert h, .refl i _⟩
  | wallet id o u horg h => exact ⟨.refl i _, .refl i _, .insert h⟩

theorem Provides.wallets {site : Site} {c : WalletCall} {i : ℕ} {db : Db} (h : Provides site c i db db') :
    ∀ x ∈ db'.wallets.rows, x ∈ db.wallets.rows ∨ c.isOf x.row := by
  cases h with
  | nothing | user | event | org | credit => exact fun x hx => .inl hx
  | wallet id o u horg h =>
    intro x hx
    rcases (mem_insert h).1 hx with hx | rfl
    · exact .inl hx
    · exact .inr (newWallet_isOf id o u)

section Step

variable {site : Site} {db₀ : Db} {w : World} {i : ℕ}

variable {c : WalletCall}

theorem lock_sound (h : Sound site db₀ w) (hi : w.tasks[i]? = some (.provision c .lock))
    (hfree : site.lockHash (c.addressLower site) ∉ Locks.held (Task.lock site) w.tasks) :
    Sound site db₀ (w.put i w.db (.provision c .byChain)) := by
  have hok := h.tasks i _ hi
  refine h.put hi rfl rfl rfl (fun c' s' heq => ?_) (h.locks.acquire hi rfl rfl hfree) ⟨hok.1, hok.2⟩
  cases heq
  exact ⟨.byChain, rfl, by simp⟩

theorem statement_sound (h : Sound site db₀ w) (hdb₀ : ∀ y ∈ db₀.orgs.rows, y.owner = none) {s' : Stage} {d : Draw}
    (hi : w.tasks[i]? = some (.provision c s)) (hs : s ≠ .lock) (hst : c.statement site i d w.db s = .next db' s') :
    Sound site db₀ (w.put i db' (.provision c s')) := by
  have hw := h.wards hi hs
  obtain ⟨hc, hok⟩ := h.tasks i _ hi
  obtain ⟨hb, hok'⟩ := statement_local h.base hdb₀ hc hw hok hst
  have hprov := statement_provides hst
  have hs' := statement_ne_lock hst
  obtain ⟨horgs, hcredits, hwallets⟩ := hprov.byTx
  refine h.advance hi hb horgs hcredits hwallets ?_ ?_ ?_ ⟨hc, hok'⟩ (fun m hm _ => .inl hm)
  · intro x hx
    rcases hprov.wallets x hx with hx | hof
    · exact .inl ⟨x, hx, rfl⟩
    · exact .inr ⟨c, s, rfl, hs, hof⟩
  · intro x hx hown
    refine ⟨c, s', rfl, hs', ?_⟩
    rcases hprov.wallets x hx with hx | hof
    · exact hw.own x hx hown
    · exact hof
  · exact h.locks.keep hi (by rw [lock_eq site c hs, lock_eq site c hs'])

theorem commitProvision_sound (h : Sound site db₀ w) (hdb₀ : ∀ y ∈ db₀.orgs.rows, y.owner = none) {r : Provisioned}
    (hi : w.tasks[i]? = some (.provision c (.commit r))) : Sound site db₀ (w.put i (w.db.commit i) (.provisioned c r)) := by
  obtain ⟨-, hok⟩ := h.tasks i _ hi
  obtain ⟨x, hx, hown, hof, hxo⟩ := hok.1
  have hset : Settled (w.db.commit i) c r.org.id := by
    refine ⟨x.settle i, mem_commit.2 ⟨x, hx, rfl⟩, ?_, by rwa [settle_row], by rwa [settle_row]⟩
    rw [settle_owner]
    rcases hown with hown | hown <;> simp [hown]
  have hnew : Sound site db₀ ⟨w.db.commit i, w.tasks.set i (.provisioned c r), w.made ++ []⟩ :=
    h.commit hi (commit_ok h.base hdb₀ hok) rfl (fun hno => ⟨hno, hset⟩) (forall_mem_nil _)
  rwa [append_nil] at hnew

theorem stepProvision_sound (h : Sound site db₀ w) (hdb₀ : ∀ y ∈ db₀.orgs.rows, y.owner = none) (d : Draw)
    (hi : w.tasks[i]? = some (.provision c s)) : Sound site db₀ (w.stepProvision site i d c s) := by
  unfold World.stepProvision
  split
  · exact h.abort hdb₀ hi rfl (fun db hno => hno)
  · split
    · exact h
    · rename_i hfree
      split
      · rename_i db s' hst
        by_cases hs : s = .lock
        · subst hs
          cases hst
          exact lock_sound h hi (fun hheld => hfree ⟨rfl, hheld⟩)
        · exact statement_sound h hdb₀ hi hs hst
      · exact h
      · exact h.abort hdb₀ hi rfl (fun db hno => hno)
      · rename_i r hst
        obtain rfl := statement_done hst
        exact commitProvision_sound h hdb₀ hi

theorem stepRegister_sound (h : Sound site db₀ w) (hdb₀ : ∀ y ∈ db₀.orgs.rows, y.owner = none) (d : Draw) {given : Text}
    {r : RegisterRequest} {s : RegisterStage} (hi : w.tasks[i]? = some (.register given r s)) :
    Sound site db₀ (w.stepRegister site i d given r s) := by
  obtain ⟨hr, horg, hs⟩ := h.tasks i _ hi
  have habort : ∀ {status : ℕ}, Sound site db₀ (w.abort i (.responded status false)) :=
    fun {status} => h.abort hdb₀ hi rfl (fun db hno => hno)
  have hkeep : ∀ s', Locks.Exclusive (Task.lock site) (w.tasks.set i (.register given r s')) :=
    fun s' => h.locks.keep hi rfl
  unfold World.stepRegister
  split
  · exact habort
  · cases s with
    | insertOrg =>
      simp only [RegisterRequest.statement]
      cases ht : w.db.orgs.insert (some i) (r.newOrg site d.id) with
      | done t =>
        refine h.advance hi (h.base.org ht) (.insert ht) (.refl i _) (.refl i _) (fun x hx => .inl ⟨x, hx, rfl⟩) ?_
          (hkeep _) ⟨hr, ?_, (mem_insert ht).2 (.inr rfl)⟩ (fun m hm _ => .inl hm)
        · intro x hx hown
          obtain ⟨c, s, hc, -⟩ := h.owned x hx i hown
          rw [hi] at hc
          cases hc
        · intro x hx hown
          rcases (mem_insert ht).1 hx with hx | rfl
          · exact horg x hx hown
          · exact hr
      | conflict => exact habort
      | wait => exact h
    | insertUser o =>
      simp only [RegisterRequest.statement]
      split_ifs
      · cases ht : w.db.users.insert (some i) (r.newUser d.id o) with
        | done t => exact h.put hi rfl rfl rfl (by simp) (hkeep _) ⟨hr, horg, o, hs, rfl⟩
        | conflict => exact habort
        | wait => exact h
      · exact habort
    | commit u =>
      obtain ⟨o, ho, hid⟩ := hs
      refine h.commit hi (h.base.commit hdb₀ ?_) rfl (fun hno => hno) ?_
      · intro y hy hown hm
        rw [horg y hy hown] at hm
        cases hm
      · intro m hm hinv
        rw [mem_singleton.1 hm]
        exact ⟨⟨o, none⟩, mem_commit.2 ⟨_, ho, by simp [settle]⟩, rfl, hid, horg ⟨o, some i⟩ ho rfl⟩

theorem stepAccept_sound (h : Sound site db₀ w) (d : Draw) {a : AcceptInviteRequest} {s : AcceptStage}
    (hi : w.tasks[i]? = some (.accept a s)) : Sound site db₀ (w.stepAccept site i d a s) := by
  have hno : NoOrg w.db i := h.tasks i _ hi
  have hput : ∀ {db : Db} {t : Task}, db.orgs = w.db.orgs → db.credits = w.db.credits → db.wallets = w.db.wallets →
      t.lock site = none → TaskOk site db i t → Sound site db₀ (w.put i db t) := by
    intro db t horgs hcredits hwallets hlock ht
    exact h.put hi horgs hcredits hwallets (by simp) (h.locks.keep hi hlock) ht
  unfold World.stepAccept
  split
  · exact hput rfl rfl rfl rfl hno
  · match s with
    | .look =>
      dsimp only
      split
      · exact hput rfl rfl rfl rfl hno
      · split <;> exact hput rfl rfl rfl rfl hno
    | .consume v =>
      dsimp only
      split <;> exact hput rfl rfl rfl rfl hno
    | .create v =>
      dsimp only [World.stepCreate]
      split
      · exact hput rfl rfl rfl rfl hno
      · split
        · exact h.still hi rfl rfl rfl (by simp) (h.locks.keep hi rfl) hno (by simp)
        · exact hput rfl rfl rfl rfl hno
        · exact h
    | .issue u => exact hput rfl rfl rfl rfl hno

theorem begin_sound (h : Sound site db₀ w) (ht : Begins site t) : Sound site db₀ (w.begin t) := by
  have hlock : t.lock site = none := by cases ht <;> rfl
  have hno : NoOrg w.db w.tasks.length := fun x hx hown => absurd (h.orgs x hx _ hown) (lt_irrefl _)
  have hnoCredit : NoCredit w.db w.tasks.length := fun x hx hown => absurd (h.credits x hx _ hown) (lt_irrefl _)
  have hlen : (w.begin t).tasks.length = w.tasks.length + 1 := length_append
  refine ⟨h.locks.snoc hlock, h.base, fun x hx i hown => ?_, fun x hx i hown => ?_, fun x hx i hown => ?_,
    fun i t' hi => ?_, h.human⟩
  · obtain ⟨c, s, hi, hs⟩ := h.owned x hx i hown
    exact ⟨c, s, by rw [World.begin, List.getElem?_append_left (List.getElem?_eq_some_iff.1 hi).1]; exact hi, hs⟩
  · rw [hlen]
    exact Nat.lt_succ_of_lt (h.orgs x hx i hown)
  · rw [hlen]
    exact Nat.lt_succ_of_lt (h.credits x hx i hown)
  · simp only [World.begin] at hi ⊢
    by_cases hlt : i < w.tasks.length
    · rw [getElem?_append_left hlt] at hi
      exact h.tasks i t' hi
    · have hbound := (List.getElem?_eq_some_iff.1 hi).1
      rw [length_append, length_singleton] at hbound
      have hi' : i = w.tasks.length := by omega
      subst hi'
      rw [getElem?_append_right (le_refl _), Nat.sub_self, getElem?_cons_zero, Option.some.injEq] at hi
      subst hi
      cases ht with
      | raised | refused | accept => exact hno
      | provision c hc =>
        refine ⟨?_, hno, hnoCredit⟩
        unfold check at hc
        split_ifs at hc with hm
        all_goals simpa using hm
      | register r r' hv =>
        unfold RegisterRequest.validate at hv
        dsimp only at hv
        split_ifs at hv with hok
        cases hv
        refine ⟨by simpa using hok.2.2.2.2.2.2, fun x hx hown => absurd hown (hno x hx), trivial⟩

theorem step_sound (h : Sound site db₀ w) (hdb₀ : ∀ y ∈ db₀.orgs.rows, y.owner = none) (act : Act) :
    Sound site db₀ (step site w act) := by
  refine step_rule site h (fun t ht => begin_sound h ht) ?_ ?_ act
  · intro v d
    unfold World.createInvite
    split
    · exact h
    · split
      · exact h
      · refine ⟨h.locks, h.base.congr rfl rfl rfl, h.owned, h.orgs, h.credits, fun i t hi => ?_, h.human⟩
        refine TaskOk.frame (Nat.ne_of_lt (Nat.lt_succ_self i)) ?_ ?_ ?_ ?_ (h.tasks i t hi)
        · exact .refl _ _
        · exact .refl _ _
        · exact .refl _ _
        · exact fun _ _ _ _ hnw => hnw
  · intro i d t hi
    match t with
    | .provision c s => exact stepProvision_sound h hdb₀ d hi
    | .register given r s => exact stepRegister_sound h hdb₀ d hi
    | .accept a s => exact stepAccept_sound h d hi
    | .provisioned c r => exact h
    | .raised e => exact h
    | .responded status b => exact h

theorem run_sound (site : Site) {db₀ : Db} (h : Consistent db₀) (acts : List Act) :
    Sound site db₀ (run site { db := db₀ } acts) := by
  refine Runs.run_inv (step site) (Sound site db₀) (fun w act hw => step_sound hw h.orgs act) acts ?_
  refine ⟨Locks.Exclusive.nil, .start site h, fun x hx i hown => ?_, fun x hx i hown => ?_, fun x hx i hown => ?_,
    fun i t hi => absurd hi (by simp), fun m hm => absurd hm not_mem_nil⟩
  · rw [h.wallets x hx] at hown
    cases hown
  · rw [h.orgs x hx] at hown
    cases hown
  · rw [h.credits x hx] at hown
    cases hown

end Step

/-- the address of a call up to letter case -/
def WalletCall.key (c : WalletCall) : Text := pgLower c.address.1

/-- **Provisioning isolates addresses.** From a consistent database: calls for one address resolve to one org; calls for two
addresses resolve to one org only if both were in it before; the wallets of a new address are in a new machine org, which no
registration made; and every new machine org has its row of credits with the machine spend limit. -/
theorem provisioning_isolates (site : Site) {db₀ : Db} (h : Consistent db₀) (acts : List Act) :
    let w := run site { db := db₀ } acts
    (∀ c r c' r', .provisioned c r ∈ w.tasks → .provisioned c' r' ∈ w.tasks →
      (c.key = c'.key → r.org.id = r'.org.id) ∧
      (c.key ≠ c'.key → r.org.id = r'.org.id → Joined db₀ c.key r.org.id ∧ Joined db₀ c'.key r.org.id)) ∧
    (∀ c r, .provisioned c r ∈ w.tasks → (∀ o, ¬ Joined db₀ c.key o) →
      IsNew db₀ r.org.id ∧ ∀ m ∈ w.made, m.invite = none → m.orgId ≠ r.org.id) ∧
    (∀ o ∈ w.db.orgs.select none, isMachine o.acquisitionSource → IsNew db₀ o.id →
      ∃ x ∈ w.db.credits.select none, x.caps site o.id) := by
  intro w
  have hw : Sound site db₀ w := run_sound site h acts
  have hjoined : ∀ {c r}, .provisioned c r ∈ w.tasks → Joined w.db c.key r.org.id := by
    intro c r hmem
    obtain ⟨i, hi⟩ := mem_iff_getElem?.1 hmem
    obtain ⟨-, x, hx, -, hof, hxo⟩ := hw.tasks i _ hi
    refine ⟨x, hx, ?_, hxo⟩
    rw [isOf_iff.1 hof, c.text_eq, key]
  refine ⟨fun c r c' r' hr hr' => ⟨fun hkey => ?_, fun hkey horg => ?_⟩, fun c r hr hfresh => ?_, fun o ho hm hnew => ?_⟩
  · exact hw.base.one c.key _ _ (hjoined hr) (hkey ▸ hjoined hr')
  · rcases hw.base.apart c.key c'.key r.org.id (hjoined hr) (horg ▸ hjoined hr') with heq | hboth
    · exact absurd heq hkey
    · exact hboth
  · rcases hw.base.fresh c.key r.org.id (hjoined hr) with ⟨o, ho⟩ | ⟨hnew, y, hy, hid, hm⟩
    · exact absurd ho (hfresh o)
    · refine ⟨hnew, fun m hm' hinv heq => ?_⟩
      obtain ⟨z, hz, -, hzid, hzm⟩ := hw.human m hm' hinv
      rw [org_of_id hz hy (hzid.trans (heq.trans hid.symm)), hm] at hzm
      cases hzm
  · obtain ⟨y, hy, rfl, hown⟩ := mem_select.1 ho
    obtain ⟨x, hx, hxown, hcap⟩ := hw.base.capped y hy (hown.elim id id) hm hnew
    exact ⟨x.row, mem_select.2 ⟨x, hx, rfl, .inl hxown⟩, hcap⟩

/-- an address in capitals and in small letters -/
def capitalAddress : Address := ⟨'0' :: 'x' :: List.replicate 40 'A', by decide⟩

def smallAddress : Address := ⟨'0' :: 'x' :: List.replicate 40 'a', by decide⟩

def signIn (a : Address) (chainId : ℤ) : Act :=
  .provision { address := a, chainId := chainId, acquisitionSource := "siwe".toList }

/-- a registration takes the name of a wallet's org; then the wallet signs in on two chains, in two letter cases -/
def squatted : List Act :=
  [.register ⟨walletName smallAddress.1, "eve@host.example".toList, []⟩, .step 0 { id := "h".toList },
    .step 0 { id := "h".toList }, .step 0 {}, signIn capitalAddress 1] ++
    List.replicate 11 (.step 1 { id := "p".toList, hex := "0123456789ab".toList }) ++
    [signIn smallAddress 8453] ++
    List.replicate 8 (.step 2 { id := "q".toList })

/-- the org a provisioning resolved to -/
def Task.orgId? : Task → Option Text
  | .provisioned _ r => some r.org.id
  | _ => none

/-- both sign-ins resolve to one org, which is not the squatter's -/
theorem provisioning_isolates_squatted :
    (run {} {} squatted).tasks.filterMap Task.orgId? = ["p".toList, "p".toList] ∧
      (run {} {} squatted).made.map Account.orgId = ["h".toList] ∧
      ∀ c r c' r', .provisioned c r ∈ (run {} {} squatted).tasks → .provisioned c' r' ∈ (run {} {} squatted).tasks →
        c.key = c'.key → r.org.id = r'.org.id :=
  ⟨by decide +kernel, by decide +kernel, fun c r c' r' hr hr' =>
    ((provisioning_isolates {} Consistent.empty squatted).1 c r c' r' hr hr').1⟩

end Teardrop.Signup
