/-
Whether other accounts can keep a wallet from being provisioned. Between calls nothing is pending, so a provisioning that
runs alone never waits. It inserts an org, a user, credits, a wallet and an event. The org has fallback names, the
credits and the wallet belong to what is new; the user has the email `<address>@wallet`, and the event the payment
reference, and for these two there is no other choice.
-/
import Teardrop.Signup.Isolation

namespace Teardrop.Signup

open PyText SharedTable WalletCall List World

/-! ## Between calls -/

/-- a transaction that has not ended -/
def Task.isOpen : Task → Bool
  | .provision _ _ | .register _ _ _ => true
  | .accept _ _ | .provisioned _ _ | .raised _ | .responded _ _ => false

/-- only rows of transaction `i` come, go or change hands, in any table -/
structure Db.ByTx (i : ℕ) (db db' : Db) : Prop where
  orgs : SharedTable.ByTx i db.orgs db'.orgs
  users : SharedTable.ByTx i db.users db'.users
  credits : SharedTable.ByTx i db.credits db'.credits
  wallets : SharedTable.ByTx i db.wallets db'.wallets
  events : SharedTable.ByTx i db.events db'.events

/-- transaction `i` has nothing pending -/
structure Idle (db : Db) (i : ℕ) : Prop where
  orgs : ∀ x ∈ db.orgs.rows, x.owner ≠ some i
  users : ∀ x ∈ db.users.rows, x.owner ≠ some i
  credits : ∀ x ∈ db.credits.rows, x.owner ≠ some i
  wallets : ∀ x ∈ db.wallets.rows, x.owner ≠ some i
  events : ∀ x ∈ db.events.rows, x.owner ≠ some i

variable {db' : Db}

theorem Idle.other {db : Db} {i j : ℕ} (h : Idle db j) (hby : Db.ByTx i db db') (hj : j ≠ i) : Idle db' j where
  orgs x hx hown := h.orgs x (hby.orgs.old x hx j hj hown) hown
  users x hx hown := h.users x (hby.users.old x hx j hj hown) hown
  credits x hx hown := h.credits x (hby.credits.old x hx j hj hown) hown
  wallets x hx hown := h.wallets x (hby.wallets.old x hx j hj hown) hown
  events x hx hown := h.events x (hby.events.old x hx j hj hown) hown

theorem Db.ByTx.refl (i : ℕ) (db : Db) : Db.ByTx i db db := ⟨.refl i _, .refl i _, .refl i _, .refl i _, .refl i _⟩

theorem Db.ByTx.commit (i : ℕ) (db : Db) : Db.ByTx i db (db.commit i) :=
  ⟨.commit i _, .commit i _, .commit i _, .commit i _, .commit i _⟩

theorem Db.ByTx.rollback (i : ℕ) (db : Db) : Db.ByTx i db (db.rollback i) :=
  ⟨.rollback i _, .rollback i _, .rollback i _, .rollback i _, .rollback i _⟩

theorem idle_rollback (db : Db) (i : ℕ) : Idle (db.rollback i) i := by
  constructor <;> exact fun x hx => (mem_rollback.1 hx).2

theorem not_owned_commit {K R : Type} {entries : R → List K} {t : SharedTable entries} {i : ℕ} :
    ∀ x ∈ (t.commit i).rows, x.owner ≠ some i := by
  intro x hx hown
  obtain ⟨y, -, rfl⟩ := mem_commit.1 hx
  rw [Stored.settle_owner] at hown
  split_ifs at hown with hy
  exact hy hown

theorem idle_commit (db : Db) (i : ℕ) : Idle (db.commit i) i := by
  constructor <;> exact not_owned_commit

/-- users refer to their orgs, and a call that is no open transaction has nothing pending -/
structure Refs (w : World) : Prop where
  users : ∀ x ∈ w.db.users.rows, RefersTo w.db x.owner x.row.orgId
  pending : ∀ i, (∀ t, w.tasks[i]? = some t → t.isOpen = false) → Idle w.db i

variable {t' : Task} {made : List Account}

theorem Refs.advance {w : World} {i : ℕ} {t : Task} (h : Refs w) (hi : w.tasks[i]? = some t) (hby : Db.ByTx i w.db db')
    (hidle : t'.isOpen = false → Idle db' i) (husers : ∀ x ∈ db'.users.rows, RefersTo db' x.owner x.row.orgId) :
    Refs { db := db', tasks := w.tasks.set i t', made := made } where
  users := husers
  pending j hj := by
    by_cases hij : j = i
    · subst hij
      exact hidle (hj t' (List.getElem?_set_self (List.getElem?_eq_some_iff.1 hi).1))
    · refine (h.pending j (fun x hx => hj x ?_)).other hby hij
      rw [getElem?_set_ne (Ne.symm hij)]
      exact hx

section Steps

variable {site : Site} {w : World} {i : ℕ}

variable {db : Db} {r : RegisterRequest}

theorem RefersTo.mono {owner : Option ℕ} {orgId : Text} (h : RefersTo db owner orgId)
    (horgs : ∀ y ∈ db.orgs.rows, y ∈ db'.orgs.rows) : RefersTo db' owner orgId := by
  obtain ⟨y, hy, hid⟩ := h
  exact ⟨y, horgs y hy, hid⟩

theorem Refs.abort {t : Task} (h : Refs w) (hi : w.tasks[i]? = some t) : Refs (w.abort i t') := by
  refine h.advance hi (.rollback i _) (fun _ => idle_rollback _ i) (fun x hx => ?_)
  obtain ⟨hx, hown⟩ := mem_rollback.1 hx
  exact refersTo_rollback (h.users x hx) hown

theorem Refs.commit {t : Task} (h : Refs w) (hi : w.tasks[i]? = some t) :
    Refs { db := w.db.commit i, tasks := w.tasks.set i t', made := made } := by
  refine h.advance hi (.commit i _) (fun _ => idle_commit _ i) (fun x hx => ?_)
  obtain ⟨y, hy, rfl⟩ := mem_commit.1 hx
  rw [Stored.settle_row, Stored.settle_owner]
  exact refersTo_commit (h.users y hy)

theorem Provides.refs {c : WalletCall} (h : Provides site c i db db')
    (husers : ∀ x ∈ db.users.rows, RefersTo db x.owner x.row.orgId) :
    Db.ByTx i db db' ∧ ∀ x ∈ db'.users.rows, RefersTo db' x.owner x.row.orgId := by
  cases h with
  | nothing => exact ⟨.refl i _, husers⟩
  | org id name h =>
    exact ⟨⟨.insert h, .refl i _, .refl i _, .refl i _, .refl i _⟩,
      fun x hx => (husers x hx).mono (fun y hy => (mem_insert h).2 (.inl hy))⟩
  | user id o horg h =>
    refine ⟨⟨.refl i _, .insert h, .refl i _, .refl i _, .refl i _⟩, fun x hx => ?_⟩
    rcases (mem_insert h).1 hx with hx | rfl
    · exact husers x hx
    · exact hasOrg_refers horg
  | credit o horg h => exact ⟨⟨.refl i _, .refl i _, .insert h, .refl i _, .refl i _⟩, husers⟩
  | wallet id o u horg h => exact ⟨⟨.refl i _, .refl i _, .refl i _, .insert h, .refl i _⟩, husers⟩
  | event e horg h => exact ⟨⟨.refl i _, .refl i _, .refl i _, .refl i _, .insert h⟩, husers⟩

theorem Registers.refs (h : Registers site r i db db') (husers : ∀ x ∈ db.users.rows, RefersTo db x.owner x.row.orgId) :
    Db.ByTx i db db' ∧ ∀ x ∈ db'.users.rows, RefersTo db' x.owner x.row.orgId := by
  cases h with
  | org id h =>
    exact ⟨⟨.insert h, .refl i _, .refl i _, .refl i _, .refl i _⟩,
      fun x hx => (husers x hx).mono (fun y hy => (mem_insert h).2 (.inl hy))⟩
  | user id o horg h =>
    refine ⟨⟨.refl i _, .insert h, .refl i _, .refl i _, .refl i _⟩, fun x hx => ?_⟩
    rcases (mem_insert h).1 hx with hx | rfl
    · exact husers x hx
    · exact hasOrg_refers horg

theorem stepProvision_refs (h : Refs w) (d : Draw) {c : WalletCall} {s : Stage}
    (hi : w.tasks[i]? = some (.provision c s)) : Refs (w.stepProvision site i d c s) := by
  unfold stepProvision
  split
  · exact h.abort hi
  · split
    · exact h
    · split
      · rename_i db s' hst
        obtain ⟨hby, husers⟩ := (statement_provides hst).refs h.users
        exact h.advance hi hby (fun hopen => by cases hopen) husers
      · exact h
      · exact h.abort hi
      · exact h.commit hi

theorem stepRegister_refs (h : Refs w) (d : Draw) {given : Text} {s : RegisterStage}
    (hi : w.tasks[i]? = some (.register given r s)) : Refs (w.stepRegister site i d given r s) := by
  unfold stepRegister
  split
  · exact h.abort hi
  · split
    · rename_i db s' hst
      obtain ⟨hby, husers⟩ := (RegisterRequest.statement_registers hst).refs h.users
      exact h.advance hi hby (fun hopen => by cases hopen) husers
    · exact h
    · exact h.abort hi
    · exact h.commit hi

theorem hasOrg_refers_committed {orgId : Text} (h : db.hasOrg none orgId) : RefersTo db none orgId := by
  obtain ⟨r, hr, hk⟩ := taken_iff.1 h
  obtain ⟨y, hy, rfl, hown⟩ := mem_select.1 hr
  exact ⟨y, hy, by simpa [OrgRow.entries, eq_comm] using hk, hown⟩

theorem stepAccept_refs (h : Refs w) (d : Draw) {a : AcceptInviteRequest} {s : AcceptStage}
    (hi : w.tasks[i]? = some (.accept a s)) : Refs (w.stepAccept site i d a s) := by
  have hidle : Idle w.db i := h.pending i (fun t ht => by rw [hi] at ht; cases ht; rfl)
  have hput : ∀ {db : Db} {t : Task}, db.orgs = w.db.orgs → db.users = w.db.users → db.credits = w.db.credits →
      db.wallets = w.db.wallets → db.events = w.db.events → Refs (w.put i db t) := by
    intro db t horgs husers hcredits hwallets hevents
    refine h.advance hi ⟨horgs ▸ .refl i _, husers ▸ .refl i _, hcredits ▸ .refl i _, hwallets ▸ .refl i _,
      hevents ▸ .refl i _⟩ (fun _ => ?_) ?_
    · constructor
      · rw [horgs]; exact hidle.orgs
      · rw [husers]; exact hidle.users
      · rw [hcredits]; exact hidle.credits
      · rw [hwallets]; exact hidle.wallets
      · rw [hevents]; exact hidle.events
    · unfold RefersTo
      rw [husers, horgs]
      exact h.users
  unfold stepAccept
  split
  · exact hput rfl rfl rfl rfl rfl
  · match s with
    | .look =>
      dsimp only
      split
      · exact hput rfl rfl rfl rfl rfl
      · split <;> exact hput rfl rfl rfl rfl rfl
    | .consume v =>
      dsimp only
      split <;> exact hput rfl rfl rfl rfl rfl
    | .create v =>
      dsimp only [stepCreate]
      split
      · exact hput rfl rfl rfl rfl rfl
      · rename_i horg
        rw [not_not] at horg
        split
        · rename_i t ht
          have hby : SharedTable.ByTx i w.db.users t := .insertBy ht (by simp)
          refine h.advance hi ⟨.refl i _, hby, .refl i _, .refl i _, .refl i _⟩ (fun _ => ?_) (fun x hx => ?_)
          · refine ⟨hidle.orgs, fun x hx hown => ?_, hidle.credits, hidle.wallets, hidle.events⟩
            rcases (mem_insert ht).1 hx with hx | rfl
            · exact hidle.users x hx hown
            · cases hown
          · rcases (mem_insert ht).1 hx with hx | rfl
            · exact h.users x hx
            · exact hasOrg_refers_committed horg
        · exact hput rfl rfl rfl rfl rfl
        · exact h
    | .issue u => exact hput rfl rfl rfl rfl rfl

theorem step_refs (h : Refs w) (act : Act) : Refs (step site w act) := by
  refine step_rule site h ?_ ?_ ?_ act
  · intro t ht
    refine ⟨h.users, fun i hi => h.pending i (fun t' ht' => hi t' ?_)⟩
    rw [begin, List.getElem?_append_left (List.getElem?_eq_some_iff.1 ht').1]
    exact ht'
  · intro v d
    unfold createInvite
    split
    · exact h
    · split
      · exact h
      · refine ⟨h.users, fun i hi => ?_⟩
        have hidle := h.pending i hi
        exact ⟨hidle.orgs, hidle.users, hidle.credits, hidle.wallets, hidle.events⟩
  · intro i d t hi
    cases t with
    | provision c s => exact stepProvision_refs h d hi
    | register given r s => exact stepRegister_refs h d hi
    | accept a s => exact stepAccept_refs h d hi
    | provisioned c r => exact h
    | raised e => exact h
    | responded status b => exact h

/-- **Users refer to orgs that are there, and nothing is pending for a call that ended.** -/
theorem run_refs (site : Site) (acts : List Act) : Refs (run site {} acts) := by
  refine Runs.run_inv (step site) Refs (fun w act hw => step_refs hw act) acts ?_
  exact ⟨by simp [empty], fun i _ => by constructor <;> simp [empty]⟩

end Steps

/-! ## A provisioning that runs alone -/

section Alone

variable (site : Site) (c : WalletCall) (i : ℕ) (draws : ℕ → Draw)

/-- from the given stage the call ends after so many statements, in success or not; `k` counts the draws used -/
inductive Ends : ℕ → ℕ → Db → Stage → Bool → Prop where
  | next {k m : ℕ} {db db' : Db} {s s' : Stage} {b : Bool} (h : c.statement site i (draws k) db s = .next db' s')
    (hend : Ends (k + 1) m db' s' b) : Ends k (m + 1) db s b
  | raise {k : ℕ} {db : Db} {s : Stage} {e : Py.Exc} (h : c.statement site i (draws k) db s = .raise e) : Ends k 1 db s false
  | done {k : ℕ} {db : Db} {s : Stage} {r : Provisioned} (h : c.statement site i (draws k) db s = .done r) :
    Ends k 1 db s true

/-- the call ends after at most `most` statements, in success exactly under `P` -/
def Reaches (most k : ℕ) (db : Db) (s : Stage) (P : Prop) : Prop :=
  ∃ m ≤ most, ∃ b, Ends site c i draws k m db s b ∧ (b = true ↔ P)

variable {site c i draws}

variable {db : Db} {s : Stage}

variable {most k : ℕ} {P : Prop} (w : World)

theorem Reaches.next {s' : Stage} (h : c.statement site i (draws k) db s = .next db' s')
    (hr : Reaches site c i draws most (k + 1) db' s' P) : Reaches site c i draws (most + 1) k db s P := by
  obtain ⟨m, hm, b, hend, hb⟩ := hr
  exact ⟨m + 1, by omega, b, .next h hend, hb⟩

theorem Reaches.raise {e : Py.Exc} (h : c.statement site i (draws k) db s = .raise e) (hP : ¬ P) :
    Reaches site c i draws (most + 1) k db s P :=
  ⟨1, by omega, false, .raise h, by simpa using hP⟩

theorem Reaches.done {r : Provisioned} (h : c.statement site i (draws k) db s = .done r) (hP : P) :
    Reaches site c i draws (most + 1) k db s P :=
  ⟨1, by omega, true, .done h, by simpa using hP⟩

theorem Reaches.mono {most' : ℕ} (h : Reaches site c i draws most k db s P) (hle : most ≤ most') :
    Reaches site c i draws most' k db s P := by
  obtain ⟨m, hm, hrest⟩ := h
  exact ⟨m, hm.trans hle, hrest⟩

/-! ### In the machine -/

/-- the world with one more call -/
def World.alone (w : World) (db : Db) (t : Task) : World := { w with db := db, tasks := w.tasks ++ [t] }

/-- the next `n` steps of the call -/
def steps (i : ℕ) (draws : ℕ → Draw) (k n : ℕ) : List Act := (List.range n).map (fun j => .step i (draws (k + j)))

theorem steps_succ (k n : ℕ) : steps i draws k (n + 1) = .step i (draws k) :: steps i draws (k + 1) n := by
  unfold steps
  rw [range_succ_eq_map, map_cons, map_map]
  congr 1
  refine map_congr_left (fun j _ => ?_)
  simp only [Function.comp_apply, Nat.succ_eq_add_one]
  rw [show k + (j + 1) = k + 1 + j by omega]

theorem alone_get (db : Db) (t : Task) : (w.alone db t).tasks[w.tasks.length]? = some t := by
  simp [alone]

theorem alone_put (db db' : Db) (t t' : Task) : (w.alone db t).put w.tasks.length db' t' = w.alone db' t' := by
  simp [alone, put]

theorem alone_step {d : Draw} (hfault : d.fault = false) (hlock : ∀ t ∈ w.tasks, t.lock site = none) :
    step site (w.alone db (.provision c s)) (.step w.tasks.length d) =
      match c.statement site w.tasks.length d db s with
      | .next db' s' => w.alone db' (.provision c s')
      | .wait => w.alone db (.provision c s)
      | .raise e => w.alone (db.rollback w.tasks.length) (.raised e)
      | .done r => w.alone (db.commit w.tasks.length) (.provisioned c r) := by
  have hfree : ¬ (s = .lock ∧ site.lockHash (c.addressLower site) ∈
      Locks.held (Task.lock site) (w.alone db (.provision c s)).tasks) := by
    rintro ⟨rfl, hheld⟩
    obtain ⟨t, ht, hk⟩ := mem_filterMap.1 hheld
    rcases mem_append.1 ht with ht | ht
    · rw [hlock t ht] at hk
      cases hk
    · rw [mem_singleton.1 ht] at hk
      cases hk
  simp only [step, alone_get, stepTask, stepProvision, hfault, Bool.false_eq_true, if_false, if_neg hfree]
  simp only [abort, alone_put]
  rfl

theorem alone_over (site : Site) (draws : ℕ → Draw) (w : World) (db : Db) (t : Task)
    (h : ∀ d, stepTask site (w.alone db t) w.tasks.length d t = w.alone db t) (k n : ℕ) : run site (w.alone db t) (steps w.tasks.length draws k n) = w.alone db t := by
  induction n generalizing k with
  | zero => rfl
  | succ n ih =>
    rw [steps_succ, run, Runs.run_cons]
    have hstep : step site (w.alone db t) (.step w.tasks.length (draws k)) = w.alone db t := by
      simp only [step, alone_get]
      exact h (draws k)
    rw [hstep]
    exact ih (k + 1)

theorem run_alone (hlock : ∀ t ∈ w.tasks, t.lock site = none) (hfault : ∀ k, (draws k).fault = false) {m n : ℕ} {b : Bool}
    (h : Ends site c w.tasks.length draws k m db s b) (hn : m ≤ n) :
    (∃ r, (run site (w.alone db (.provision c s)) (steps w.tasks.length draws k n)).tasks[w.tasks.length]? =
      some (.provisioned c r)) ↔ b = true := by
  induction h generalizing n with
  | @next k m db db' s s' b hst hend ih =>
    obtain ⟨n, rfl⟩ : ∃ n', n = n' + 1 := ⟨n - 1, by omega⟩
    rw [steps_succ, run, Runs.run_cons, alone_step w (hfault k) hlock, hst]
    exact ih (by omega)
  | @raise k db s e hst =>
    obtain ⟨n, rfl⟩ : ∃ n', n = n' + 1 := ⟨n - 1, by omega⟩
    rw [steps_succ, run, Runs.run_cons, alone_step w (hfault k) hlock, hst]
    have hrun := alone_over site draws w (db.rollback w.tasks.length) (.raised e) (fun _ => rfl) (k + 1) n
    unfold run at hrun
    rw [hrun, alone_get]
    simp
  | @done k db s r hst =>
    obtain ⟨n, rfl⟩ : ∃ n', n = n' + 1 := ⟨n - 1, by omega⟩
    rw [steps_succ, run, Runs.run_cons, alone_step w (hfault k) hlock, hst]
    have hrun := alone_over site draws w (db.commit w.tasks.length) (.provisioned c r) (fun _ => rfl) (k + 1) n
    unfold run at hrun
    rw [hrun, alone_get]
    simp

end Alone

/-! ## Its statements -/

/-- nothing is pending -/
def AllCommitted {K R : Type} {entries : R → List K} (t : SharedTable entries) : Prop := ∀ x ∈ t.rows, x.owner = none

/-- an index entry is on no row -/
def FreeOf {K R : Type} {entries : R → List K} (t : SharedTable entries) (k : K) : Prop := ∀ x ∈ t.rows, k ∉ entries x.row

theorem freeOf_iff {K R : Type} [DecidableEq K] {entries : R → List K} {t : SharedTable entries} (h : AllCommitted t)
    {tx : Option ℕ} {k : K} : t.taken tx k = false ↔ FreeOf t k := by
  rw [← Bool.not_eq_true, taken_iff]
  constructor
  · intro hnone x hx hk
    exact hnone ⟨x.row, mem_select.2 ⟨x, hx, rfl, .inl (h x hx)⟩, hk⟩
  · rintro hfree ⟨r, hr, hk⟩
    obtain ⟨x, hx, rfl, -⟩ := mem_select.1 hr
    exact hfree x hx hk

theorem insert_total {K R : Type} [DecidableEq K] {entries : R → List K} {t : SharedTable entries} (h : AllCommitted t)
    (tx : Option ℕ) (r : R) :
    ((∃ t', t.insert tx r = .done t') ∧ ∀ k ∈ entries r, FreeOf t k) ∨
      (t.insert tx r = .conflict ∧ ¬ ∀ k ∈ entries r, FreeOf t k) := by
  by_cases hfree : ∀ k ∈ entries r, FreeOf t k
  · refine .inl ⟨(insert_done_iff_free (fun x hx => .inl (h x hx))).2 (fun k hk => ?_), hfree⟩
    exact (freeOf_iff h).2 (hfree k hk)
  · refine .inr ⟨insert_conflict_iff.2 ?_, hfree⟩
    push Not at hfree
    obtain ⟨k, hk, hnot⟩ := hfree
    exact ⟨k, hk, by rw [← Bool.not_eq_false, freeOf_iff h]; exact hnot⟩

/-- uuids that nobody has drawn before, also where a fallback name is made of one -/
structure FreshDraw (site : Site) (db : Db) (c : WalletCall) (d : Draw) : Prop where
  fault : d.fault = false
  org : FreeOf db.orgs (.id d.id)
  user : FreeOf db.users (.id d.id)
  wallet : FreeOf db.wallets (.id d.id)
  event : FreeOf db.events (.id d.id)
  name : FreeOf db.orgs (.name (fallbackName d.hex (c.addressLower site)))
  slug : FreeOf db.orgs (.slug (generateOrgSlug site.cases (fallbackName d.hex (c.addressLower site))))

section Statements

variable {site : Site} {c : WalletCall} {i : ℕ} {draws : ℕ → Draw} {db : Db} {k : ℕ}

/-- nobody has the email of the wallet -/
def EmailFree (site : Site) (c : WalletCall) (db : Db) : Prop :=
  FreeOf db.users (.email (walletEmail (c.addressLower site)))

/-- no event has the payment reference -/
def RefFree (c : WalletCall) (db : Db) : Prop := ∀ ref, c.paymentRef = some ref → FreeOf db.events (.paymentRef ref)

theorem newEvent_free {id orgId method : Text} (hid : FreeOf db.events (.id id)) :
    (∀ e ∈ (c.newEvent id orgId method).entries, FreeOf db.events e) ↔ RefFree c db := by
  have hentries : (c.newEvent id orgId method).entries = .id id :: (c.paymentRef.map EventKey.paymentRef).toList := rfl
  unfold RefFree
  rw [hentries]
  match c.paymentRef with
  | none => simpa using hid
  | some ref => simpa using fun _ => hid

variable {o : OrgRow}

variable {u : UserRow} {t : SharedTable OrgRow.entries}

theorem event_reaches {x : WalletRow} (horg : db.hasOrg (some i) o.id) (hc : AllCommitted db.events)
    (hid : FreeOf db.events (.id (draws k).id)) : Reaches site c i draws 2 k db (.event o u x) (RefFree c db) := by
  rcases insert_total hc (some i) (c.newEvent (draws k).id o.id c.acquisitionSource) with ⟨⟨t, ht⟩, hfree⟩ | ⟨ht, hnot⟩
  · have hst : c.statement site i (draws k) db (.event o u x) = .next { db with events := t } (.commit ⟨o, u, x, true⟩) := by
      simp [statement, horg, ht]
    exact Reaches.next hst (Reaches.done rfl ((newEvent_free hid).1 hfree))
  · have hst : c.statement site i (draws k) db (.event o u x) = .raise (.pg .uniqueViolation) := by
      simp [statement, horg, ht]
    exact Reaches.raise hst (fun hfree => hnot ((newEvent_free hid).2 hfree))

theorem wallet_reaches (horg : db.hasOrg (some i) o.id) (huser : db.hasUser (some i) u.id) (hw : AllCommitted db.wallets)
    (hnone : NoWallet db c) (hc : AllCommitted db.events) (hid : FreeOf db.wallets (.id (draws k).id))
    (hev : FreeOf db.events (.id (draws (k + 1)).id)) :
    Reaches site c i draws 3 k db (.wallet o u false) (RefFree c db) := by
  have hfree : ∀ e ∈ (c.newWallet (draws k).id o u).entries, FreeOf db.wallets e := by
    intro e he
    simp only [WalletRow.entries, mem_cons, not_mem_nil, or_false] at he
    rcases he with rfl | rfl
    · exact hid
    · intro x hx hk
      have hplace : c.text = x.row.address ∧ c.chainId = x.row.chainId := by
        simpa [WalletRow.entries, newWallet] using hk
      exact hnone x hx (isOf_iff.2 (by rw [hplace.1]))
  rcases insert_total hw (some i) (c.newWallet (draws k).id o u) with ⟨⟨t, ht⟩, -⟩ | ⟨-, hnot⟩
  · have hst : c.statement site i (draws k) db (.wallet o u false) =
        .next { db with wallets := t } (.event o u { c.newWallet (draws k).id o u with isPrimary := true }) := by
      simp only [statement, horg, huser, and_self, not_true_eq_false, if_false, ht]
      rfl
    exact Reaches.next hst (event_reaches horg hc hev)
  · exact absurd hfree hnot

theorem credits_reaches (horg : db.hasOrg (some i) o.id) (huser : db.hasUser (some i) u.id) (hcr : AllCommitted db.credits)
    (hnocr : FreeOf db.credits o.id) (hw : AllCommitted db.wallets) (hnone : NoWallet db c) (hc : AllCommitted db.events)
    (hid : FreeOf db.wallets (.id (draws (k + 1)).id)) (hev : FreeOf db.events (.id (draws (k + 2)).id)) :
    Reaches site c i draws 4 k db (.credits o u false) (RefFree c db) := by
  have hnew : (newCredit site o).entries = [o.id] := by
    unfold newCredit
    split_ifs <;> rfl
  rcases insert_total hcr (some i) (newCredit site o) with ⟨⟨t, ht⟩, -⟩ | ⟨-, hnot⟩
  · have hst : c.statement site i (draws k) db (.credits o u false) =
        .next { db with credits := t } (.wallet o u false) := by
      simp [statement, horg, ht]
    exact Reaches.next hst (wallet_reaches horg huser hw hnone hc hid hev)
  · rw [hnew] at hnot
    exact absurd (by simpa using hnocr) hnot

/-- what stands when a provisioning without a wallet begins, and the draws it makes -/
structure Clear (site : Site) (c : WalletCall) (draws : ℕ → Draw) (db : Db) : Prop where
  orgs : AllCommitted db.orgs
  users : AllCommitted db.users
  credits : AllCommitted db.credits
  wallets : AllCommitted db.wallets
  events : AllCommitted db.events
  base : Base site {} db
  userRefs : ∀ x ∈ db.users.rows, RefersTo db x.owner x.row.orgId
  noWallet : NoWallet db c
  draws : ∀ k, FreshDraw site db c (draws k)

theorem hasOrg_insert (ht : db.orgs.insert (some i) o = .done t) :
    ({ db with orgs := t } : Db).hasOrg (some i) o.id = true := by
  refine taken_iff.2 ⟨o, mem_select.2 ⟨⟨o, some i⟩, ?_, rfl, .inr rfl⟩, by simp [OrgRow.entries]⟩
  exact (mem_insert ht).2 (.inr rfl)

/-- with its org inserted, all that can be in the way is the email and the payment reference -/
theorem user_reaches (h : Clear site c draws db) (hid : FreeOf db.orgs (.id o.id))
    (ht : db.orgs.insert (some i) o = .done t) :
    Reaches site c i draws 6 k { db with orgs := t } (.user o) (EmailFree site c db ∧ RefFree c db) := by
  have hunref : ∀ {owner}, ¬ RefersTo db owner o.id := by
    rintro owner ⟨y, hy, hyid, -⟩
    exact hid y hy (by simp [OrgRow.entries, hyid])
  have horg := hasOrg_insert ht
  have hst : c.statement site i (draws k) { db with orgs := t } (.user o) = .next { db with orgs := t } (.insertUser o) := by
    have hnone : (db.users.select (some i)).filter (fun u => u.orgId = o.id && u.isActive) = [] := by
      refine filter_eq_nil_iff.2 (fun u hu hcond => ?_)
      obtain ⟨x, hx, rfl, -⟩ := mem_select.1 hu
      rw [Bool.and_eq_true, decide_eq_true_eq] at hcond
      exact hunref (hcond.1 ▸ h.userRefs x hx)
    simp [statement, hnone, fetchrow_eq_none.2 rfl]
  refine Reaches.next hst ?_
  have hnew : (∀ e ∈ (c.newUser site (draws (k + 1)).id o).entries, FreeOf db.users e) ↔ EmailFree site c db := by
    have hentries : (c.newUser site (draws (k + 1)).id o).entries =
        [.id (draws (k + 1)).id, .email (walletEmail (c.addressLower site))] := rfl
    rw [hentries]
    simpa [EmailFree] using fun _ => (h.draws (k + 1)).user
  rcases insert_total h.users (some i) (c.newUser site (draws (k + 1)).id o) with ⟨⟨t', ht'⟩, hfree⟩ | ⟨ht', hnot⟩
  · have hst' : c.statement site i (draws (k + 1)) { db with orgs := t } (.insertUser o) =
        .next { db with orgs := t, users := t' } (.credits o (c.newUser site (draws (k + 1)).id o) false) := by
      simp [statement, horg, ht']
    have huser : ({ db with orgs := t, users := t' } : Db).hasUser (some i) (c.newUser site (draws (k + 1)).id o).id := by
      refine taken_iff.2 ⟨_, mem_select.2 ⟨_, (mem_insert ht').2 (.inr rfl), rfl, .inr rfl⟩, ?_⟩
      exact mem_cons_self
    have hcredit : FreeOf db.credits o.id := by
      intro x hx hk
      rw [CreditRow.entries, mem_singleton] at hk
      exact hunref (hk ▸ h.base.creditRefs x hx)
    have hrest : Reaches site c i draws 4 (k + 2) { db with orgs := t, users := t' } _ (RefFree c db) :=
      credits_reaches horg huser h.credits hcredit h.wallets h.noWallet h.events (h.draws _).wallet (h.draws _).event
    obtain ⟨m, hm, b, hend, hb⟩ := hrest
    refine Reaches.next hst' ⟨m, hm, b, hend, hb.trans ?_⟩
    exact (and_iff_right (hnew.1 hfree)).symm
  · have hst' : c.statement site i (draws (k + 1)) { db with orgs := t } (.insertUser o) = .raise (.pg .uniqueViolation) := by
      simp [statement, horg, ht']
    exact Reaches.raise hst' (fun hfree => hnot (hnew.2 hfree.1))

theorem fallback_reaches (h : Clear site c draws db) :
    Reaches site c i draws 7 k db (.fallback 3) (EmailFree site c db ∧ RefFree c db) := by
  have hfree : ∀ e ∈ (c.newOrg site (draws k).id (fallbackName (draws k).hex (c.addressLower site))).entries,
      FreeOf db.orgs e := by
    intro e he
    simp only [OrgRow.entries, newOrg, mem_cons, not_mem_nil, or_false] at he
    rcases he with rfl | rfl | rfl
    · exact (h.draws k).org
    · exact (h.draws k).name
    · exact (h.draws k).slug
  rcases insert_total h.orgs (some i) (c.newOrg site (draws k).id (fallbackName (draws k).hex (c.addressLower site))) with
    ⟨⟨t, ht⟩, -⟩ | ⟨-, hnot⟩
  · have hst : c.statement site i (draws k) db (.fallback 3) = .next { db with orgs := t } (.user
        (c.newOrg site (draws k).id (fallbackName (draws k).hex (c.addressLower site)))) := by
      simp [statement, insertOrgAs, ht]
    exact Reaches.next hst (user_reaches h (h.draws k).org ht)
  · exact absurd hfree hnot

/-- **A provisioning without a wallet reaches an org of its own, whatever names are taken.** -/
theorem founds (h : Clear site c draws db) :
    Reaches site c i draws 10 k db .orgByName (EmailFree site c db ∧ RefFree c db) := by
  have hno : NoOrg db i := fun x hx hown => by rw [h.orgs x hx] at hown; cases hown
  have hgate := gate_fallback h.base hno h.noWallet
  match hfind : (db.orgs.select (some i)).find? (fun o => o.name = walletName (c.addressLower site)) with
  | some o =>
    have hst : c.statement site i (draws k) db .orgByName = .next db (.fallback 3) := by
      rw [hfind] at hgate
      simp [statement, hfind, hgate]
    exact (Reaches.next hst (fallback_reaches h)).mono (by omega)
  | none =>
    have hst : c.statement site i (draws k) db .orgByName = .next db .insertOrg := by
      simp [statement, hfind]
    refine Reaches.next hst ?_
    rcases insert_total h.orgs (some i) (c.newOrg site (draws (k + 1)).id (walletName (c.addressLower site))) with
      ⟨⟨t, ht⟩, -⟩ | ⟨ht, -⟩
    · have hst' : c.statement site i (draws (k + 1)) db .insertOrg =
          .next { db with orgs := t } (.user (c.newOrg site (draws (k + 1)).id (walletName (c.addressLower site)))) := by
        simp [statement, insertOrgAs, ht]
      exact (Reaches.next hst' (user_reaches h (h.draws (k + 1)).org ht)).mono (by omega)
    · have hst' : c.statement site i (draws (k + 1)) db .insertOrg = .next db .reselect := by
        simp [statement, insertOrgAs, ht]
      have hst'' : c.statement site i (draws (k + 1 + 1)) db .reselect = .next db (.fallback 3) := by
        simp [statement, hgate]
      exact Reaches.next hst' (Reaches.next hst'' (fallback_reaches h))

theorem reaches_all (h : Clear site c draws db) :
    Reaches site c i draws 13 k db .lock (EmailFree site c db ∧ RefFree c db) := by
  have hnil : ∀ w ∈ db.wallets.select (some i), c.isOf w = false := by
    intro w hw
    obtain ⟨x, hx, rfl, -⟩ := mem_select.1 hw
    rw [← Bool.not_eq_true]
    exact h.noWallet x hx
  have hchain : c.onChain (db.wallets.select (some i)) = [] :=
    filter_eq_nil_iff.2 (fun w hw => by rw [hnil w hw]; simp)
  have hany : c.onAnyChain (db.wallets.select (some i)) = [] :=
    filter_eq_nil_iff.2 (fun w hw => by rw [hnil w hw]; simp)
  have hst : c.statement site i (draws (k + 1)) db .byChain = .next db .anyChain := by
    simp [statement, hchain, fetchrow_eq_none.2 rfl]
  have hst' : c.statement site i (draws (k + 1 + 1)) db .anyChain = .next db .orgByName := by
    simp [statement, hany, fetchrow_eq_none.2 rfl]
  exact Reaches.next rfl (Reaches.next hst (Reaches.next hst' (founds h)))

end Statements

/-- **When a wallet can be provisioned.** In every state that registrations, invites and provisionings reach and in which
no transaction is open, for every address without a wallet and fresh uuids: the call succeeds exactly if no user has
the email `<address>@wallet` and no event the payment reference it comes with. -/
theorem provisioning_succeeds_iff (site : Site) (acts : List Act) (c : WalletCall) (draws : ℕ → Draw) {n : ℕ} (hn : 13 ≤ n)
    (hover : ∀ t ∈ (run site {} acts).tasks, t.isOpen = false) (hcheck : c.check = none)
    (hnone : ∀ x ∈ (run site {} acts).db.wallets.select none, c.isOf x = false)
    (hdraws : ∀ k, FreshDraw site (run site {} acts).db c (draws k)) :
    (∃ r, (run site (run site {} acts) (.provision c :: steps (run site {} acts).tasks.length draws 0 n)).tasks[
        (run site {} acts).tasks.length]? = some (.provisioned c r)) ↔
      ((run site {} acts).db.users.taken none (.email (walletEmail (c.addressLower site))) = false ∧
        ∀ ref, c.paymentRef = some ref → (run site {} acts).db.events.taken none (.paymentRef ref) = false) := by
  have hrefs := run_refs site acts
  have hsound := run_sound site Consistent.empty acts
  generalize run site {} acts = w at *
  have hidle : ∀ i, Idle w.db i := fun i => hrefs.pending i (fun t ht => hover t (mem_of_getElem? ht))
  have hcommitted : ∀ {K R : Type} {entries : R → List K} {t : SharedTable entries},
      (∀ i, ∀ x ∈ t.rows, x.owner ≠ some i) → AllCommitted t := by
    intro K R entries t h x hx
    match hown : x.owner with
    | none => rfl
    | some i => exact absurd hown (h i x hx)
  have hclear : Clear site c draws w.db :=
    { orgs := hcommitted (fun i => (hidle i).orgs)
      users := hcommitted (fun i => (hidle i).users)
      credits := hcommitted (fun i => (hidle i).credits)
      wallets := hcommitted (fun i => (hidle i).wallets)
      events := hcommitted (fun i => (hidle i).events)
      base := hsound.base
      userRefs := hrefs.users
      noWallet := fun x hx hof => by
        have hown := hcommitted (fun i => (hidle i).wallets) x hx
        rw [hnone x.row (mem_select.2 ⟨x, hx, rfl, .inl hown⟩)] at hof
        cases hof
      draws := hdraws }
  obtain ⟨m, hm, b, hend, hb⟩ := reaches_all (i := w.tasks.length) (k := 0) hclear
  have hlock : ∀ t ∈ w.tasks, t.lock site = none := by
    intro t ht
    have hclosed := hover t ht
    match t with
    | .provision c s => cases hclosed
    | .register _ _ _ | .accept _ _ | .provisioned _ _ | .raised _ | .responded _ _ => rfl
  have hbegin : step site w (.provision c) = w.alone w.db (.provision c .lock) := by
    simp only [step, hcheck]
    rfl
  unfold run
  rw [Runs.run_cons, hbegin]
  refine (run_alone w hlock (fun k => (hdraws k).fault) hend (hm.trans hn)).trans (hb.trans ?_)
  refine and_congr (freeOf_iff hclear.users).symm (forall_congr' fun ref => imp_congr_right fun _ => ?_)
  exact (freeOf_iff hclear.events).symm

def walletSignIn : WalletCall := { address := smallAddress, chainId := 1, acquisitionSource := "siwe".toList }

def sameDraw (_ : ℕ) : Draw := { id := "p".toList, hex := "0123456789ab".toList }

/-- the first wallet of an empty database -/
theorem provisioning_succeeds_iff_first :
    ∃ r, (run {} (run {} {} []) (.provision walletSignIn :: steps (run {} {} []).tasks.length sameDraw 0 13)).tasks[
      (run {} {} []).tasks.length]? = some (.provisioned walletSignIn r) := by
  refine (provisioning_succeeds_iff {} [] walletSignIn sameDraw (le_refl 13) ?_ (by decide) ?_ ?_).2 ⟨rfl, ?_⟩
  · exact fun t ht => absurd ht not_mem_nil
  · exact fun x hx => absurd hx not_mem_nil
  · intro k
    constructor
    · rfl
    all_goals exact fun x hx => absurd hx not_mem_nil
  · exact fun ref href => absurd href (by simp [walletSignIn])

/-- an org, an invite of it, and its acceptance under the email of a wallet -/
def squattedEmail : List Act :=
  [.register ⟨"acme".toList, "eve@acme.example".toList, []⟩, .step 0 { id := "o".toList }, .step 0 { id := "u".toList },
    .step 0 {}, .invite { orgId := "o".toList } { id := "t".toList },
    .accept ⟨"t".toList, walletEmail smallAddress.1⟩, .step 1 {}, .step 1 {}, .step 1 { id := "v".toList }, .step 1 {}]

/-- **An accepted invite keeps a wallet from being provisioned.** -/
theorem squatted_email_blocks :
    (run {} {} squattedEmail).tasks[1]? = some (.responded 201 true) ∧
      (run {} {} squattedEmail).db.wallets.rows = [] ∧ walletSignIn.check = none ∧
      (run {} (run {} {} squattedEmail) (.provision walletSignIn :: steps 2 sameDraw 0 13)).tasks[2]? =
        some (.raised (.pg .uniqueViolation)) := by
  all_goals decide +kernel

end Teardrop.Signup
