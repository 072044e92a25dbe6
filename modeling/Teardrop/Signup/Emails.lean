/-
Looking an account up by its email (`get_user_by_email`), after any interleaving of the machine's calls. The lookup trims and
lowers what it is given and compares with what is stored. Registration stores the trimmed lower-case email, an accepted invite
the email of the request as it came.
-/
import Mathlib
import Teardrop.Signup.Sessions

namespace Teardrop.Signup

open PyText SharedTable List

/-! ## Emails that are stored normalised -/

/-- trimming and lowering change nothing -/
def Normal (site : Site) (email : Text) : Prop := normalise site.cases email = email

instance (site : Site) (email : Text) : Decidable (Normal site email) :=
  inferInstanceAs (Decidable (normalise site.cases email = email))

theorem printable_localChar {c : Char} (h : isLocalChar c) : Printable c := by
  simp only [isLocalChar, Bool.or_eq_true, decide_eq_true_eq] at h
  rcases h with (h | h) | h
  · exact printable_letter h
  · exact printable_decimal h
  · have hall : ∀ x ∈ ['.', '_', '%', '+', '-'], 33 ≤ x.toNat ∧ x.toNat < 128 := by simp
    exact hall c h

theorem printable_domainChar {c : Char} (h : isDomainChar c) : Printable c := by
  simp only [isDomainChar, Bool.or_eq_true, decide_eq_true_eq] at h
  rcases h with (h | h) | h
  · exact printable_letter h
  · exact printable_decimal h
  · have hall : ∀ x ∈ ['.', '-'], 33 ≤ x.toNat ∧ x.toNat < 128 := by simp
    exact hall c h

theorem printable_domain {domain : Text} (h : isDomain domain) : ∀ c ∈ domain, Printable c := by
  unfold isDomain splitTld at h
  split at h
  · rename_i host hhost
    simp only [Bool.and_eq_true, all_eq_true] at h
    intro c hc
    have hsplit := takeWhile_append_dropWhile (p := isLetter) (l := domain.reverse)
    rw [← mem_reverse, ← hsplit, mem_append] at hc
    rcases hc with hc | hc
    · exact printable_letter (mem_takeWhile_imp hc)
    · simp only at hhost
      rw [hhost] at hc
      rcases mem_cons.1 hc with rfl | hc
      · exact ⟨by decide, by decide⟩
      · exact printable_domainChar (h.1.2 c hc)
  · cases h

theorem printable_email {s : Text} (h : isEmail s) : ∀ c ∈ s, Printable c := by
  unfold isEmail at h
  split at h
  · rename_i domain hdomain
    rw [Bool.and_eq_true] at h
    intro c hc
    rw [← takeWhile_append_dropWhile (p := isLocalChar) (l := s), mem_append, hdomain] at hc
    rcases hc with hc | hc
    · exact printable_localChar (mem_takeWhile_imp hc)
    · rcases mem_cons.1 hc with rfl | hc
      · exact ⟨by decide, by decide⟩
      · exact printable_domain h.2 c hc
  · cases h

variable (site : Site) {w : World} {i : ℕ} {t : Task} {new : List Account}

/-- **A registered email is its own trimmed lower case.** -/
theorem registered_normal {raw : Text} (h : matchesEmail (normalise site.cases raw)) :
    Normal site (normalise site.cases raw) := by
  unfold matchesEmail at h
  rw [Bool.or_eq_true] at h
  rcases h with h | h
  · exact normalise_printable site.cases (printable_email h) (fun c hc => site.cases.small_of_mem_lower hc)
  · -- the newline that `$` admits would be a blank at the end of a trimmed text
    rw [Bool.and_eq_true, decide_eq_true_eq] at h
    have hlast := site.cases.last_lower_strip h.1
    exact absurd hlast (by decide)

theorem walletEmail_normal (c : WalletCall) : Normal site (walletEmail (c.addressLower site)) := by
  have hsmall : ∀ x ∈ "@wallet".toList, Printable x ∧ ¬ ('A' ≤ x ∧ x ≤ 'Z') := by
    simp [Printable]
  refine normalise_printable site.cases (fun x hx => ?_) (fun x hx => ?_)
  · rcases mem_append.1 hx with hx | hx
    · rw [c.addressLower_eq, c.text_eq] at hx
      exact printable_pgLower c.address.printable x hx
    · exact (hsmall x hx).1
  · rcases mem_append.1 hx with hx | hx
    · exact site.cases.small_of_mem_lower hx
    · exact (hsmall x hx).2

theorem validate_email {site : Site} {r r' : RegisterRequest} (h : r.validate site = some r') :
    r'.email = normalise site.cases r.email ∧ Normal site r'.email := by
  unfold RegisterRequest.validate at h
  dsimp only at h
  split_ifs at h with hok
  cases h
  exact ⟨rfl, registered_normal site hok.2.2.2.1⟩

/-! ## What the steps keep -/

/-- the row of an account: it is committed, with the email the route stores -/
def Account.isRow (site : Site) (m : Account) (x : Stored UserRow) : Prop :=
  x.owner = none ∧ x.row.id = m.userId ∧
    x.row.email = (match m.invite with | none => normalise site.cases m.email | some _ => m.email)

structure Kept (site : Site) (w : World) : Prop where
  /-- users are active, and their emails are normalised or came with an invite -/
  users : ∀ x ∈ w.db.users.rows, x.row.isActive = true ∧
    (Normal site x.row.email ∨ ∃ m ∈ w.made, m.invite.isSome ∧ m.email = x.row.email)
  made : ∀ m ∈ w.made, ∃ x ∈ w.db.users.rows, m.isRow site x
  registering : ∀ i given r s, w.tasks[i]? = some (.register given r s) →
    r.email = normalise site.cases given ∧ Normal site r.email ∧
      ∀ u, s = .commit u → ⟨u, some i⟩ ∈ w.db.users.rows ∧ u.email = r.email

/-- what a step of task `i` does to users, accounts and tasks: it keeps the rows that are not its own, what it adds is
normalised or comes with an account of an invite, and what it counts as made is there -/
structure UserStep (site : Site) (w w' : World) (i : ℕ) (t : Task) (new : List Account) : Prop where
  tasks : w'.tasks = w.tasks.set i t
  made : w'.made = w.made ++ new
  users : ∀ x ∈ w'.db.users.rows, (∃ y ∈ w.db.users.rows, y.row = x.row) ∨ (x.row.isActive = true ∧
    (Normal site x.row.email ∨ ∃ m ∈ new, m.invite.isSome ∧ m.email = x.row.email))
  keeps : ∀ x ∈ w.db.users.rows, x.owner ≠ some i → x ∈ w'.db.users.rows
  rows : ∀ m ∈ new, ∃ x ∈ w'.db.users.rows, m.isRow site x
  registering : ∀ given r s, t = .register given r s → r.email = normalise site.cases given ∧ Normal site r.email ∧
    ∀ u, s = .commit u → ⟨u, some i⟩ ∈ w'.db.users.rows ∧ u.email = r.email

theorem UserStep.kept {site : Site} {w' : World} (h : Kept site w) (hs : UserStep site w w' i t new) : Kept site w' where
  users x hx := by
    rcases hs.users x hx with ⟨y, hy, hrow⟩ | ⟨hactive, hnew⟩
    · rw [← hrow]
      obtain ⟨hactive, hmail⟩ := h.users y hy
      refine ⟨hactive, hmail.imp_right ?_⟩
      rintro ⟨m, hm, hinv⟩
      exact ⟨m, by rw [hs.made]; exact mem_append_left _ hm, hinv⟩
    · refine ⟨hactive, hnew.imp_right ?_⟩
      rintro ⟨m, hm, hinv⟩
      exact ⟨m, by rw [hs.made]; exact mem_append_right _ hm, hinv⟩
  made m hm := by
    rw [hs.made, mem_append] at hm
    rcases hm with hm | hm
    · obtain ⟨x, hx, hrow⟩ := h.made m hm
      exact ⟨x, hs.keeps x hx (by rw [hrow.1]; exact (Option.some_ne_none i).symm), hrow⟩
    · exact hs.rows m hm
  registering j given r s hj := by
    rw [hs.tasks, getElem?_set] at hj
    split_ifs at hj with hij hlt
    · subst hij
      exact hs.registering given r s (Option.some.inj hj)
    · obtain ⟨hemail, hnormal, hrow⟩ := h.registering j given r s hj
      refine ⟨hemail, hnormal, fun u hu => ⟨hs.keeps _ (hrow u hu).1 ?_, (hrow u hu).2⟩⟩
      exact fun heq => hij (Option.some.inj heq).symm

theorem UserStep.still {site : Site} {w' : World} (htasks : w'.tasks = w.tasks.set i t) (husers : w'.db.users = w.db.users)
    (hmade : w'.made = w.made)
    (hreg : ∀ given r s, t = .register given r s → r.email = normalise site.cases given ∧ Normal site r.email ∧ ∀ u, s = .commit u → ⟨u, some i⟩ ∈ w.db.users.rows ∧ u.email = r.email) :
    UserStep site w w' i t [] where
  tasks := htasks
  made := by rw [hmade, append_nil]
  users _ hx := .inl ⟨_, by rwa [husers] at hx, rfl⟩
  keeps _ hx _ := by rwa [husers]
  rows _ hm := absurd hm not_mem_nil
  registering := by rw [husers]; exact hreg

theorem UserStep.abort (w : World) (i : ℕ) (ht : ∀ given r s, t ≠ .register given r s) :
    UserStep site w (w.abort i t) i t [] where
  tasks := rfl
  made := (append_nil _).symm
  users x hx := .inl ⟨x, (mem_rollback.1 hx).1, rfl⟩
  keeps _ hx hown := mem_rollback.2 ⟨hx, hown⟩
  rows _ hm := absurd hm not_mem_nil
  registering given r s h := absurd h (ht given r s)

theorem mem_commit_of_ne {K R : Type} {entries : R → List K} {t : SharedTable entries} {x : Stored R} (hx : x ∈ t.rows)
    (hown : x.owner ≠ some i) : x ∈ (t.commit i).rows :=
  mem_commit.2 ⟨x, hx, if_neg hown⟩

theorem UserStep.commit {site : Site} {w' : World} (htasks : w'.tasks = w.tasks.set i t)
    (husers : w'.db.users = w.db.users.commit i) (hmade : w'.made = w.made ++ new)
    (hrows : ∀ m ∈ new, ∃ x ∈ w'.db.users.rows, m.isRow site x) (ht : ∀ given r s, t ≠ .register given r s) :
    UserStep site w w' i t new where
  tasks := htasks
  made := hmade
  users x hx := by
    rw [husers] at hx
    obtain ⟨y, hy, rfl⟩ := mem_commit.1 hx
    exact .inl ⟨y, hy, (Stored.settle_row i y).symm⟩
  keeps x hx hown := by
    rw [husers]
    exact mem_commit_of_ne hx hown
  rows := hrows
  registering given r s h := absurd h (ht given r s)

theorem UserStep.insert {site : Site} {w' : World} {tx : Option ℕ} {u : UserRow} {table : SharedTable UserRow.entries}
    (h : w.db.users.insert tx u = .done table) (htasks : w'.tasks = w.tasks.set i t) (husers : w'.db.users = table)
    (hmade : w'.made = w.made ++ new) (hactive : u.isActive = true)
    (hmail : Normal site u.email ∨ ∃ m ∈ new, m.invite.isSome ∧ m.email = u.email)
    (hrows : ∀ m ∈ new, m.isRow site ⟨u, tx⟩)
    (hreg : ∀ given r s, t = .register given r s → r.email = normalise site.cases given ∧ Normal site r.email ∧ ∀ u', s = .commit u' → ⟨u', some i⟩ ∈ table.rows ∧ u'.email = r.email) :
    UserStep site w w' i t new where
  tasks := htasks
  made := hmade
  users x hx := by
    rw [husers, mem_insert h] at hx
    rcases hx with hx | rfl
    · exact .inl ⟨x, hx, rfl⟩
    · exact .inr ⟨hactive, hmail⟩
  keeps x hx _ := by
    rw [husers, mem_insert h]
    exact .inl hx
  rows m hm := by
    rw [husers]
    exact ⟨_, (mem_insert h).2 (.inr rfl), hrows m hm⟩
  registering := by rw [husers]; exact hreg

theorem stepProvision_kept (h : Kept site w) (i : ℕ) (d : Draw) (c : WalletCall) (s : Stage) :
    Kept site (w.stepProvision site i d c s) := by
  unfold World.stepProvision
  split_ifs
  · exact UserStep.kept h (UserStep.abort site w i (by simp))
  · exact h
  · split
    · rename_i db s' hs
      cases WalletCall.statement_provides hs with
      | user id o horg hu =>
        exact UserStep.kept h (UserStep.insert hu rfl rfl (append_nil _).symm rfl (.inl (walletEmail_normal site c)) (by simp)
          (by simp))
      | nothing | org | credit | wallet | event => exact UserStep.kept h (UserStep.still rfl rfl rfl (by simp))
    · exact h
    · exact UserStep.kept h (UserStep.abort site w i (by simp))
    · exact UserStep.kept h (UserStep.commit rfl rfl (append_nil _).symm (by simp) (by simp))

theorem stepRegister_kept (h : Kept site w) (d : Draw) {given : Text} {r : RegisterRequest} {s : RegisterStage}
    (hi : w.tasks[i]? = some (.register given r s)) : Kept site (w.stepRegister site i d given r s) := by
  obtain ⟨hemail, hnormal, hrow⟩ := h.registering i given r s hi
  unfold World.stepRegister
  split_ifs
  · exact UserStep.kept h (UserStep.abort site w i (by simp))
  · cases s with
    | insertOrg =>
      simp only [RegisterRequest.statement]
      cases ho : w.db.orgs.insert (some i) (r.newOrg site d.id) with
      | done t =>
        refine UserStep.kept h (UserStep.still rfl rfl rfl ?_)
        rintro given' r' s' ⟨rfl, rfl, rfl⟩
        exact ⟨hemail, hnormal, by simp⟩
      | conflict => exact UserStep.kept h (UserStep.abort site w i (by simp))
      | wait => exact h
    | insertUser o =>
      simp only [RegisterRequest.statement]
      split_ifs
      · cases hu : w.db.users.insert (some i) (r.newUser d.id o) with
        | done t =>
          refine UserStep.kept h (UserStep.insert hu rfl rfl (append_nil _).symm rfl (.inl hnormal) (by simp) ?_)
          rintro given' r' s' ⟨rfl, rfl, rfl⟩
          refine ⟨hemail, hnormal, ?_⟩
          rintro u' ⟨rfl⟩
          exact ⟨(mem_insert hu).2 (.inr rfl), rfl⟩
        | conflict => exact UserStep.kept h (UserStep.abort site w i (by simp))
        | wait => exact h
      · exact UserStep.kept h (UserStep.abort site w i (by simp))
    | commit u =>
      obtain ⟨hmem, hmail⟩ := hrow u rfl
      refine UserStep.kept h (UserStep.commit rfl rfl rfl ?_ (by simp))
      intro m hm
      rw [mem_singleton] at hm
      subst hm
      refine ⟨⟨u, none⟩, mem_commit.2 ⟨_, hmem, by simp [Stored.settle]⟩, rfl, rfl, ?_⟩
      exact hmail.trans hemail

theorem stepAccept_kept (h : Kept site w) (d : Draw) {a : AcceptInviteRequest} {s : AcceptStage} :
    Kept site (w.stepAccept site i d a s) := by
  have hput : ∀ {db : Db} {t : Task}, db.users = w.db.users → (∀ given r s, t ≠ .register given r s) →
      Kept site (w.put i db t) := by
    intro db t husers ht
    exact UserStep.kept h (UserStep.still rfl husers rfl (fun given r s heq => absurd heq (ht given r s)))
  unfold World.stepAccept
  split_ifs
  · exact hput rfl (by simp)
  · split
    · split
      · exact hput rfl (by simp)
      · split_ifs <;> exact hput rfl (by simp)
    · split <;> exact hput rfl (by simp)
    · unfold World.stepCreate
      split_ifs
      · split
        · rename_i t hu
          refine UserStep.kept h (UserStep.insert hu rfl rfl rfl rfl (.inr ⟨_, mem_singleton.2 rfl, rfl, rfl⟩) ?_ (by simp))
          intro m hm
          rw [mem_singleton] at hm
          subst hm
          exact ⟨rfl, rfl, rfl⟩
        · exact hput rfl (by simp)
        · exact h
      · exact hput rfl (by simp)
    · exact hput rfl (by simp)

/-- **What every step keeps about the stored emails.** -/
theorem step_kept (h : Kept site w) (act : Act) : Kept site (step site w act) := by
  refine step_rule site h ?_ ?_ ?_ act
  · intro t ht
    refine ⟨h.users, h.made, fun i given r s hi => ?_⟩
    simp only [World.begin] at hi ⊢
    rw [getElem?_append] at hi
    split_ifs at hi
    · exact h.registering i given r s hi
    · have htask := mem_singleton.1 (mem_of_getElem? hi)
      cases ht with
      | register r₀ r' hv =>
        cases htask
        exact ⟨(validate_email hv).1, (validate_email hv).2, by simp⟩
      | raised | refused | provision | accept => cases htask
  · intro v d
    unfold World.createInvite
    split_ifs
    · exact h
    · split
      · exact h
      · exact ⟨h.users, h.made, h.registering⟩
  · intro i d t hi
    match t with
    | .provision c s => exact stepProvision_kept site h i d c s
    | .register given r s => exact stepRegister_kept site h d hi
    | .accept a s => exact stepAccept_kept site h d
    | .provisioned c r => exact h
    | .raised e => exact h
    | .responded status b => exact h

/-! ## The lookup -/

/-- every account is found by the email it was made with, and no two active ones agree up to case and blanks -/
def AccountsFound (site : Site) (w : World) : Prop :=
  (∀ m ∈ w.made, ∃ u, w.db.getUserByEmail site.cases m.email = some u ∧ u.id = m.userId) ∧
    ∀ u ∈ w.db.users.select none, ∀ v ∈ w.db.users.select none, u.isActive = true → v.isActive = true →
      normalise site.cases u.email = normalise site.cases v.email → u = v

theorem getUserByEmail_row {cases : CaseTable} {db : Db} {email : Text} {x : Stored UserRow} (hx : x ∈ db.users.rows)
    (hown : x.owner = none) (hactive : x.row.isActive = true) (hmail : x.row.email = normalise cases email) :
    db.getUserByEmail cases email = some x.row := by
  have hsel : x.row ∈ db.users.select none := mem_select.2 ⟨x, hx, rfl, .inl hown⟩
  unfold Db.getUserByEmail
  match hfind : (db.users.select none).find? (fun u => u.email = normalise cases email) with
  | none =>
    have hno := find?_eq_none.1 hfind x.row hsel
    exact absurd (by simpa using hmail) hno
  | some u =>
    have hu : u.email = normalise cases email := by simpa using find?_some hfind
    have hsame : u = x.row := by
      apply select_eq_of_entry (mem_of_find?_eq_some hfind) hsel (k := .email (normalise cases email))
      · simp [UserRow.entries, hu]
      · simp [UserRow.entries, hmail]
    rw [hfind, hsame, Option.filter_some_pos hactive]

theorem getUserByEmail_email {cases : CaseTable} {db : Db} {email : Text} {u : UserRow}
    (h : db.getUserByEmail cases email = some u) : u ∈ db.users.select none ∧ u.email = normalise cases email := by
  obtain ⟨hfind, -⟩ := Option.filter_eq_some_iff.1 h
  exact ⟨mem_of_find?_eq_some hfind, by simpa using find?_some hfind⟩

theorem accountsFound_iff {site : Site} (h : Kept site w) :
    AccountsFound site w ↔ ∀ m ∈ w.made, m.invite.isSome → Normal site m.email := by
  constructor
  · rintro ⟨hfound, -⟩ m hm hinv
    obtain ⟨u, hget, hid⟩ := hfound m hm
    obtain ⟨x, hx, hown, hxid, hmail⟩ := h.made m hm
    obtain ⟨hu, hemail⟩ := getUserByEmail_email hget
    have hsel : x.row ∈ w.db.users.select none := mem_select.2 ⟨x, hx, rfl, .inl hown⟩
    have hsame : u = x.row := by
      apply select_eq_of_entry hu hsel (k := .id m.userId)
      · simp [UserRow.entries, hid]
      · simp [UserRow.entries, hxid]
    obtain ⟨token, htoken⟩ := Option.isSome_iff_exists.1 hinv
    rw [htoken] at hmail
    calc normalise site.cases m.email = u.email := hemail.symm
      _ = x.row.email := by rw [hsame]
      _ = m.email := hmail
  · intro hall
    have hnormal : ∀ u ∈ w.db.users.select none, Normal site u.email := by
      intro u hu
      obtain ⟨x, hx, rfl, -⟩ := mem_select.1 hu
      rcases (h.users x hx).2 with hn | ⟨m, hm, hinv, hmail⟩
      · exact hn
      · exact hmail ▸ hall m hm hinv
    refine ⟨fun m hm => ?_, fun u hu v hv _ _ hsame => ?_⟩
    · obtain ⟨x, hx, hown, hxid, hmail⟩ := h.made m hm
      refine ⟨x.row, getUserByEmail_row hx hown (h.users x hx).1 ?_, hxid⟩
      rw [hmail]
      match hinv : m.invite with
      | none => rfl
      | some token => exact (hall m hm (by simp [hinv])).symm
    · rw [hnormal u hu, hnormal v hv] at hsame
      apply select_eq_of_entry hu hv (k := .email u.email)
      · simp [UserRow.entries]
      · simp [UserRow.entries, hsame]

/-- **When every account can be looked up.** After any interleaving of registrations, invites and wallet sign-ins: every
account is found by the email it was made with and no two active accounts agree up to case and blanks, exactly if every
invite was accepted with an email that is its own trimmed lower case. -/
theorem accounts_found_iff (site : Site) (acts : List Act) : AccountsFound site (run site {} acts) ↔
      ∀ m ∈ (run site {} acts).made, m.invite.isSome → normalise site.cases m.email = m.email := by
  have hstart : Kept site {} := ⟨by simp [empty], by simp, by simp⟩
  exact accountsFound_iff (Runs.run_inv (step site) (Kept site) (fun w act hw => step_kept site hw act) acts hstart)

/-- an org with its user, and an invite of that org, accepted with a capital in the email -/
def capitalEmail : List Act :=
  [.register ⟨"acme".toList, "bob@acme.example".toList, []⟩, .step 0 { id := "o".toList }, .step 0 { id := "u".toList },
    .step 0 {}, .invite { orgId := "o".toList } { id := "t".toList }, .accept ⟨"t".toList, "Ann@acme.example".toList⟩,
    .step 1 {}, .step 1 {}, .step 1 { id := "v".toList }, .step 1 {}]

/-- **An account that no lookup finds.** -/
theorem capital_email_lost :
    (run {} {} capitalEmail).tasks[1]? = some (.responded 201 true) ∧
      (run {} {} capitalEmail).db.getUserByEmail .plain "Ann@acme.example".toList = none ∧
      ¬ AccountsFound {} (run {} {} capitalEmail) := by
  refine ⟨by decide, by decide, ?_⟩
  rintro ⟨hfound, -⟩
  obtain ⟨u, hget, -⟩ := hfound ⟨"Ann@acme.example".toList, "v".toList, "o".toList, some "t".toList⟩ (by decide)
  have hnone : (run {} {} capitalEmail).db.getUserByEmail .plain "Ann@acme.example".toList = none := by decide
  cases hget

end Teardrop.Signup
