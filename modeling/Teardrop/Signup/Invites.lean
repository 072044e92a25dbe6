/-
Accepting invites, any number of requests at once, beside every other call of the machine. An invite is worth one account
(`stock`). A request that fails before its consumption has written nothing; one that fails after it has used the invite up.
-/
import Teardrop.Signup.Sessions

namespace Teardrop.Signup

open World List AcceptStage

/-! ## One account an invite -/

/-- an acceptance that has consumed the invite and is to insert the user -/
def Task.isCreating (token : Text) : Task → Bool
  | .accept a (.create _) => a.token = token
  | _ => false

/-- the task used an invite up -/
def Task.consumed : Task → Bool
  | .accept _ s => s.consumed
  | .responded _ b => b
  | _ => false

namespace World

/-- the accounts made from an invite -/
def issued (w : World) (token : Text) : ℕ := w.made.countP (fun m => m.invite = some token)

/-- what became of an invite: its accounts, and those on their way -/
def stock (w : World) (token : Text) : ℕ := w.issued token + w.tasks.countP (Task.isCreating token)

def isUsed (w : World) (token : Text) : Bool := (w.db.invites.get? token).any InviteRow.used

end World

def OneAccount (w : World) : Prop := ∀ token, w.stock token ≤ (w.isUsed token).toNat

/-- task `i` moves on as `t` and touches no invite -/
structure Unasked (w w' : World) (i : ℕ) (t : Task) : Prop where
  tasks : w'.tasks = w.tasks.set i t
  invites : w'.db.invites = w.db.invites
  issued : ∀ token, w'.issued token = w.issued token

variable {w : World} {i : ℕ} {t : Task} (site : Site) (d : Draw) {w' : World} {t' : Task} {a : AcceptInviteRequest}
  {v : InviteRow} {now : ℤ} {s : AcceptStage}

theorem Unasked.same (hi : w.tasks[i]? = some t) : Unasked w w i t where
  tasks := by
    obtain ⟨hlt, rfl⟩ := List.getElem?_eq_some_iff.1 hi
    rw [set_getElem_self]
  invites := rfl
  issued _ := rfl

theorem Unasked.put (w : World) (i : ℕ) {db : Db} (h : db.invites = w.db.invites) (t : Task) :
    Unasked w (w.put i db t) i t := ⟨rfl, h, fun _ => rfl⟩

theorem Unasked.abort (w : World) (i : ℕ) (t : Task) : Unasked w (w.abort i t) i t := ⟨rfl, rfl, fun _ => rfl⟩

theorem Unasked.commit (w : World) (i : ℕ) (t : Task) : Unasked w (w.put i (w.db.commit i) t) i t :=
  ⟨rfl, rfl, fun _ => rfl⟩

theorem stepProvision_unasked {c : WalletCall} {s : Stage} (hi : w.tasks[i]? = some (.provision c s)) :
    ∃ t, Unasked w (w.stepProvision site i d c s) i t ∧ t.consumed = false ∧ ∀ token, t.isCreating token = false := by
  unfold stepProvision
  split_ifs
  · exact ⟨_, Unasked.abort w i _, rfl, fun _ => rfl⟩
  · exact ⟨_, Unasked.same hi, rfl, fun _ => rfl⟩
  · split
    · rename_i db s' h
      exact ⟨_, Unasked.put w i (WalletCall.statement_provides h).invites _, rfl, fun _ => rfl⟩
    · exact ⟨_, Unasked.same hi, rfl, fun _ => rfl⟩
    · exact ⟨_, Unasked.abort w i _, rfl, fun _ => rfl⟩
    · exact ⟨_, Unasked.commit w i _, rfl, fun _ => rfl⟩

theorem stepRegister_unasked {given : Text} {r : RegisterRequest} {s : RegisterStage}
    (hi : w.tasks[i]? = some (.register given r s)) :
    ∃ t, Unasked w (w.stepRegister site i d given r s) i t ∧ t.consumed = false ∧ ∀ token, t.isCreating token = false := by
  unfold stepRegister
  split_ifs
  · exact ⟨_, Unasked.abort w i _, rfl, fun _ => rfl⟩
  · split
    · rename_i db s' h
      exact ⟨_, Unasked.put w i (RegisterRequest.statement_registers h).invites _, rfl, fun _ => rfl⟩
    · exact ⟨_, Unasked.same hi, rfl, fun _ => rfl⟩
    · exact ⟨_, Unasked.abort w i _, rfl, fun _ => rfl⟩
    · exact ⟨_, ⟨rfl, rfl, fun token => by simp [issued]⟩, rfl, fun _ => rfl⟩

theorem Unasked.isUsed (h : Unasked w w' i t) (token : Text) : w'.isUsed token = w.isUsed token := by
  unfold World.isUsed
  rw [h.invites]

theorem Unasked.oneAccount (h : OneAccount w) (hi : w.tasks[i]? = some t) (hm : Unasked w w' i t')
    (hnot : ∀ token, t'.isCreating token = false) : OneAccount w' := by
  intro token
  have hcount := Locks.countP_set_add hi (Task.isCreating token) t'
  have hle := h token
  unfold stock at hle ⊢
  rw [hm.isUsed, hm.issued, hm.tasks]
  rw [hnot token] at hcount
  simp only [Bool.false_eq_true, if_false] at hcount
  omega

theorem stepCreate_oneAccount (h : OneAccount w) (d : Draw) (hi : w.tasks[i]? = some (.accept a (.create v))) :
    OneAccount (w.stepCreate i d a v) := by
  unfold stepCreate
  split_ifs
  · split
    · intro token
      have hcount := Locks.countP_set_add hi (Task.isCreating token) (.accept a (.issue (a.user v d.id)))
      have hle := h token
      simp only [stock, issued, isUsed, put, countP_append, countP_singleton, Option.some.injEq, decide_eq_true_eq] at hle ⊢
      simp only [Task.isCreating, decide_eq_true_eq, Bool.false_eq_true, if_false] at hcount
      omega
    · exact (Unasked.put w i rfl _).oneAccount h hi (fun _ => rfl)
    · exact h
  · exact (Unasked.put w i rfl _).oneAccount h hi (fun _ => rfl)

theorem get?_useInvite (db : Db) (token token' : Text) : (db.useInvite token).invites.get? token' =
      (db.invites.get? token').map (fun v => if v.token = token then { v with used := true } else v) := by
  simp [Db.useInvite]

theorem getOrgInvite_some {db : Db} {token : Text} (h : db.getOrgInvite token now = some v) :
    db.invites.get? token = some v ∧ v.used = false := by
  obtain ⟨hget, hp⟩ := Option.filter_eq_some_iff.1 h
  rw [Bool.and_eq_true, Bool.not_eq_true'] at hp
  exact ⟨hget, hp.1⟩

theorem consume_oneAccount (h : OneAccount w) {v' : InviteRow} (hi : w.tasks[i]? = some (.accept a (.consume v)))
    (hget : w.db.getOrgInvite a.token now = some v') :
    OneAccount (w.put i (w.db.useInvite a.token) (.accept a (.create v))) := by
  obtain ⟨hrow, hunused⟩ := getOrgInvite_some hget
  intro token
  have hcount := Locks.countP_set_add hi (Task.isCreating token) (.accept a (.create v))
  have hle := h token
  simp only [stock, issued, isUsed, put, get?_useInvite] at hle ⊢
  simp only [Task.isCreating, decide_eq_true_eq, Bool.false_eq_true, if_false] at hcount
  by_cases htoken : a.token = token
  · -- nothing was made of an invite that is unused
    subst htoken
    rw [hrow] at hle ⊢
    simp only [Option.any_some, hunused, Bool.toNat_false, Bool.toNat_true, Option.map_some, Table.key_of_get? hrow, if_true]
      at hle hcount ⊢
    omega
  · have hused : ((w.db.invites.get? token).map (fun v => if v.token = a.token then { v with used := true } else v)).any
        InviteRow.used = (w.db.invites.get? token).any InviteRow.used := by
      match hother : w.db.invites.get? token with
      | none => rfl
      | some x =>
        rw [Option.map_some, if_neg]
        rw [Table.key_of_get? hother]
        exact fun heq => htoken heq.symm
    rw [hused]
    rw [if_neg htoken] at hcount
    omega

theorem stepAccept_oneAccount (h : OneAccount w) (d : Draw) (hi : w.tasks[i]? = some (.accept a s)) :
    OneAccount (w.stepAccept site i d a s) := by
  unfold stepAccept
  split_ifs
  · exact (Unasked.put w i rfl _).oneAccount h hi (fun _ => rfl)
  · split
    · split
      · exact (Unasked.put w i rfl _).oneAccount h hi (fun _ => rfl)
      · split_ifs <;> exact (Unasked.put w i rfl _).oneAccount h hi (fun _ => rfl)
    · split
      · exact (Unasked.put w i rfl _).oneAccount h hi (fun _ => rfl)
      · rename_i hget
        exact consume_oneAccount h hi hget
    · exact stepCreate_oneAccount h d hi
    · exact (Unasked.put w i rfl _).oneAccount h hi (fun _ => rfl)

theorem begin_oneAccount (h : OneAccount w) (hnot : ∀ token, t.isCreating token = false) : OneAccount (w.begin t) := by
  intro token
  have hle := h token
  simpa [stock, issued, isUsed, begin, hnot token] using hle

theorem createInvite_oneAccount (h : OneAccount w) (v : CreateInviteRequest) (d : Draw) :
    OneAccount (w.createInvite v d) := by
  unfold createInvite
  split_ifs
  · exact h
  · split
    · exact h
    · rename_i t ht
      intro token
      have hle := h token
      simp only [stock, issued, isUsed] at hle ⊢
      rw [Table.get?_insert ht]
      split_ifs with hkey
      · have hnone : w.db.invites.get? token = none := hkey ▸ (Table.insert?_eq_some ht).1
        rw [hnone] at hle
        exact hle.trans (Nat.zero_le _)
      · exact hle

/-- **No interleaving makes two accounts from one invite.** -/
theorem step_oneAccount (h : OneAccount w) (act : Act) : OneAccount (step site w act) := by
  refine step_rule site h ?_ ?_ ?_ act
  · intro t ht
    exact begin_oneAccount h (fun token => by cases ht <;> rfl)
  · exact fun v d => createInvite_oneAccount h v d
  · intro i d t hi
    match t with
    | .provision c s =>
      obtain ⟨t', hm, -, hnot⟩ := stepProvision_unasked site d hi
      exact hm.oneAccount h hi hnot
    | .register given r s =>
      obtain ⟨t', hm, -, hnot⟩ := stepRegister_unasked site d hi
      exact hm.oneAccount h hi hnot
    | .accept a s => exact stepAccept_oneAccount site h d hi
    | .provisioned c r => exact h
    | .raised e => exact h
    | .responded status b => exact h

/-! ## What a failed request leaves behind -/

/-- the task whose step changes the invites -/
def changer (site : Site) (w : World) : Act → List ℕ
  | .step i d => if (step site w (.step i d)).db.invites.rows = w.db.invites.rows then [] else [i]
  | _ => []

/-- the tasks that changed an invite in the course of a run -/
def changers (site : Site) (w : World) (acts : List Act) : List ℕ := Runs.collect (step site) (changer site) w acts

/-- a request that ended with an error status has changed no invite -/
def FailuresLeaveInvites (site : Site) (w : World) (acts : List Act) : Prop :=
  ∀ i status b, (run site w acts).tasks[i]? = some (.responded status b) → 400 ≤ status → i ∉ changers site w acts

theorem useInvite_rows_ne {db : Db} {token : Text} (h : db.getOrgInvite token now = some v) :
    (db.useInvite token).invites.rows ≠ db.invites.rows := by
  obtain ⟨hget, hunused⟩ := getOrgInvite_some h
  intro hsame
  have hafter : (db.useInvite token).invites.get? token = db.invites.get? token := by rw [Table.get?, hsame, Table.get?]
  rw [get?_useInvite, hget, Option.map_some, if_pos (Table.key_of_get? hget), Option.some.injEq] at hafter
  rw [← hafter] at hunused
  cases hunused

/-- the task that steps has consumed an invite if it had before, or if this step changed one -/
structure Consumes (w w' : World) (i : ℕ) (t t' : Task) : Prop where
  tasks : w'.tasks = w.tasks.set i t'
  iff : t'.consumed = true ↔ t.consumed = true ∨ w'.db.invites.rows ≠ w.db.invites.rows

theorem Unasked.consumes (h : Unasked w w' i t') (hc : t'.consumed = t.consumed) : Consumes w w' i t t' where
  tasks := h.tasks
  iff := by rw [h.invites, hc]; simp

theorem stepCreate_consumes (hi : w.tasks[i]? = some (.accept a (.create v))) :
    ∃ t, Consumes w (w.stepCreate i d a v) i (.accept a (.create v)) t := by
  unfold stepCreate
  split_ifs
  · split
    · exact ⟨_, rfl, by simp [Task.consumed, consumed]⟩
    · exact ⟨_, (Unasked.put w i rfl _).consumes rfl⟩
    · exact ⟨_, (Unasked.same hi).consumes rfl⟩
  · exact ⟨_, (Unasked.put w i rfl _).consumes rfl⟩

theorem stepAccept_consumes (hi : w.tasks[i]? = some (.accept a s)) :
    ∃ t, Consumes w (w.stepAccept site i d a s) i (.accept a s) t := by
  unfold stepAccept
  split_ifs
  · exact ⟨_, (Unasked.put w i rfl _).consumes rfl⟩
  · split
    · split
      · exact ⟨_, (Unasked.put w i rfl _).consumes rfl⟩
      · split_ifs <;> exact ⟨_, (Unasked.put w i rfl _).consumes rfl⟩
    · split
      · exact ⟨_, (Unasked.put w i rfl _).consumes rfl⟩
      · rename_i hget
        exact ⟨_, rfl, by simpa [Task.consumed, consumed, put] using useInvite_rows_ne hget⟩
    · exact stepCreate_consumes d hi
    · exact ⟨_, (Unasked.put w i rfl _).consumes rfl⟩

theorem stepTask_consumes (hi : w.tasks[i]? = some t) : ∃ t', Consumes w (stepTask site w i d t) i t t' := by
  match t with
  | .provision c s =>
    obtain ⟨t', hm, hc, -⟩ := stepProvision_unasked site d hi
    exact ⟨t', hm.consumes hc⟩
  | .register given r s =>
    obtain ⟨t', hm, hc, -⟩ := stepRegister_unasked site d hi
    exact ⟨t', hm.consumes hc⟩
  | .accept a s => exact stepAccept_consumes site d hi
  | .provisioned c r => exact ⟨_, (Unasked.same hi).consumes rfl⟩
  | .raised e => exact ⟨_, (Unasked.same hi).consumes rfl⟩
  | .responded status b => exact ⟨_, (Unasked.same hi).consumes rfl⟩

/-- task `i` is there and has consumed an invite -/
def consumedBy (w : World) (i : ℕ) : Prop := ∃ t, w.tasks[i]? = some t ∧ t.consumed = true

theorem consumedBy_begin (ht : t.consumed = false) (i : ℕ) : consumedBy (w.begin t) i ↔ consumedBy w i := by
  unfold consumedBy begin
  constructor
  · rintro ⟨t', hi, hc⟩
    rw [getElem?_append] at hi
    split_ifs at hi with hlt
    · exact ⟨t', hi, hc⟩
    · rw [mem_singleton.1 (mem_of_getElem? hi), ht] at hc
      cases hc
  · rintro ⟨t', hi, hc⟩
    exact ⟨t', by rw [List.getElem?_append_left (List.getElem?_eq_some_iff.1 hi).1]; exact hi, hc⟩

theorem consumedBy_step (w : World) (act : Act) (i : ℕ) :
    consumedBy (step site w act) i ↔ consumedBy w i ∨ i ∈ changer site w act := by
  match act with
  | .step j d =>
    match hj : w.tasks[j]? with
    | none => simp [step, changer, hj]
    | some t =>
      obtain ⟨t', hm⟩ := stepTask_consumes site d hj
      have hstep : step site w (.step j d) = stepTask site w j d t := by simp only [step, hj]
      have hlt := (List.getElem?_eq_some_iff.1 hj).1
      have hmem : i ∈ changer site w (.step j d) ↔ i = j ∧ (stepTask site w j d t).db.invites.rows ≠ w.db.invites.rows := by
        unfold changer
        dsimp only
        rw [hstep]
        split_ifs with hsame <;> simp [hsame]
      rw [hmem, hstep]
      unfold consumedBy
      rw [hm.tasks]
      by_cases hij : j = i
      · subst hij
        rw [getElem?_set_self hlt, hj]
        simp [hm.iff]
      · rw [getElem?_set_ne hij]
        exact (or_iff_left (fun h => hij h.1.symm)).symm
  | .provision c =>
    have hmem : i ∉ changer site w (.provision c) := not_mem_nil
    rw [or_iff_left hmem]
    simp only [step]
    split <;> exact consumedBy_begin rfl i
  | .register r =>
    have hmem : i ∉ changer site w (.register r) := not_mem_nil
    rw [or_iff_left hmem]
    simp only [step]
    split <;> exact consumedBy_begin rfl i
  | .accept a =>
    have hmem : i ∉ changer site w (.accept a) := not_mem_nil
    rw [or_iff_left hmem]
    simp only [step]
    split_ifs <;> exact consumedBy_begin rfl i
  | .invite v d =>
    have hmem : i ∉ changer site w (.invite v d) := not_mem_nil
    rw [or_iff_left hmem]
    simp only [step, createInvite]
    split_ifs
    · exact Iff.rfl
    · split <;> exact Iff.rfl

/-- **A request has changed an invite exactly if it got past its consumption.** -/
theorem changes_iff_consumed (db : Db) (acts : List Act) (i : ℕ) :
    consumedBy (run site { db := db } acts) i ↔ i ∈ changers site { db := db } acts := by
  revert i
  refine Runs.history_rule (step site) (fun w ops => ∀ i, consumedBy w i ↔ i ∈ changers site { db := db } ops) ?_ ?_ acts
  · simp [consumedBy, changers]
  · intro ops o ih i
    rw [consumedBy_step, ih i]
    unfold changers
    rw [Runs.collect_snoc, mem_append]

/-- no request that used an invite up has ended with an error status -/
def NoLoss (w : World) : Prop := ∀ t ∈ w.tasks, ∀ status, t = .responded status true → status < 400

/-- the step ends a request with an error after its invite was consumed -/
def burns (w : World) : Act → Bool
  | .step i d =>
    match w.tasks[i]? with
    | some (.accept a (.create v)) =>
      d.fault || !w.db.hasOrg none v.orgId || w.db.users.taken none (.id d.id) || w.db.users.taken none (.email a.email)
    | some (.accept _ (.issue _)) => d.fault
    | _ => false
  | _ => false

theorem noLoss_set (h : NoLoss w) (hi : w.tasks[i]? = some t) (htasks : w'.tasks = w.tasks.set i t') :
    NoLoss w' ↔ ∀ status, t' = .responded status true → status < 400 := by
  unfold NoLoss
  rw [htasks]
  constructor
  · intro hall
    exact hall t' (List.mem_set (List.getElem?_eq_some_iff.1 hi).1 t')
  · intro ht' x hx
    rcases mem_or_eq_of_mem_set hx with hx | rfl
    · exact h x hx
    · exact ht'

theorem stepCreate_noLoss (h : NoLoss w) {d : Draw} (hi : w.tasks[i]? = some (.accept a (.create v))) :
    NoLoss (w.stepCreate i d a v) ↔
      (!w.db.hasOrg none v.orgId || w.db.users.taken none (.id d.id) || w.db.users.taken none (.email a.email)) = false := by
  have hconflict : w.db.users.insert none (a.user v d.id) = .conflict ↔
      w.db.users.taken none (.id d.id) ∨ w.db.users.taken none (.email a.email) := by
    rw [SharedTable.insert_conflict_iff]
    simp [UserRow.entries, AcceptInviteRequest.user]
  unfold stepCreate
  split_ifs with horg
  · split
    · rw [noLoss_set h hi rfl]
      simp_all
    · rename_i ht
      rw [noLoss_set h hi rfl]
      rcases hconflict.1 ht with htaken | htaken <;> simp [htaken]
    · simp_all
  · rw [noLoss_set h hi rfl]
    simp [horg]

theorem stepAccept_noLoss (h : NoLoss w) {d : Draw} (hi : w.tasks[i]? = some (.accept a s)) :
    NoLoss (w.stepAccept site i d a s) ↔ burns w (.step i d) = false := by
  unfold stepAccept
  simp only [burns, hi]
  split_ifs with hfault
  · rw [noLoss_set h hi rfl]
    cases s with
    | look => simp [consumed]
    | consume v => simp [consumed]
    | create v => simp [consumed, hfault]
    | issue u => simp [consumed, hfault]
  · rw [Bool.not_eq_true] at hfault
    cases s with
    | look =>
      dsimp only
      split
      · rw [noLoss_set h hi rfl]
        simp
      · split_ifs
        all_goals
          rw [noLoss_set h hi rfl]
          simp
    | consume v =>
      dsimp only
      split
      all_goals
        rw [noLoss_set h hi rfl]
        simp
    | create v =>
      dsimp only
      rw [stepCreate_noLoss h hi, hfault, Bool.false_or]
    | issue u =>
      rw [noLoss_set h hi rfl]
      simp [hfault]

theorem step_noLoss (h : NoLoss w) (act : Act) : NoLoss (step site w act) ↔ burns w act = false := by
  have hbegin : ∀ {t : Task}, t.consumed = false → NoLoss (w.begin t) := by
    intro t ht x hx status hstatus
    rcases mem_append.1 hx with hx | hx
    · exact h x hx status hstatus
    · rw [mem_singleton.1 hx] at hstatus
      rw [hstatus] at ht
      cases ht
  cases act with
  | step i d =>
    cases hi : w.tasks[i]? with
    | none => simp [step, burns, hi, h]
    | some t =>
      have hstep : step site w (.step i d) = stepTask site w i d t := by simp only [step, hi]
      rw [hstep]
      cases t with
      | accept a s => exact stepAccept_noLoss site h hi
      | provision c s =>
        obtain ⟨t', hm, hc, -⟩ := stepProvision_unasked site d hi
        have hgood : NoLoss (w.stepProvision site i d c s) :=
          (noLoss_set h hi hm.tasks).2 (fun status ht => by rw [ht] at hc; cases hc)
        simp [stepTask, burns, hi, hgood]
      | register given r s =>
        obtain ⟨t', hm, hc, -⟩ := stepRegister_unasked site d hi
        have hgood : NoLoss (w.stepRegister site i d given r s) :=
          (noLoss_set h hi hm.tasks).2 (fun status ht => by rw [ht] at hc; cases hc)
        simp [stepTask, burns, hi, hgood]
      | provisioned c r => simp [stepTask, burns, hi, h]
      | raised e => simp [stepTask, burns, hi, h]
      | responded status b => simp [stepTask, burns, hi, h]
  | provision c =>
    have hgood : NoLoss (step site w (.provision c)) := by
      simp only [step]
      split <;> exact hbegin rfl
    simp [burns, hgood]
  | register r =>
    have hgood : NoLoss (step site w (.register r)) := by
      simp only [step]
      split <;> exact hbegin rfl
    simp [burns, hgood]
  | accept a =>
    have hgood : NoLoss (step site w (.accept a)) := by
      simp only [step]
      split_ifs <;> exact hbegin rfl
    simp [burns, hgood]
  | invite v d =>
    have hgood : NoLoss (w.createInvite v d) := by
      unfold createInvite
      split_ifs
      · exact h
      · split <;> exact h
    simp [step, burns, hgood]

theorem failuresLeaveInvites_iff (db : Db) (acts : List Act) :
    FailuresLeaveInvites site { db := db } acts ↔ NoLoss (run site { db := db } acts) := by
  constructor
  · intro h t ht status hstatus
    by_contra herror
    obtain ⟨i, hi⟩ := mem_iff_getElem?.1 ht
    rw [hstatus] at hi
    exact h i status true hi (by omega) ((changes_iff_consumed site db acts i).1 ⟨_, hi, rfl⟩)
  · intro h i status b hi herror hmem
    obtain ⟨t, ht, hc⟩ := (changes_iff_consumed site db acts i).2 hmem
    rw [hi, Option.some.injEq] at ht
    subst ht
    have hb : b = true := hc
    subst hb
    exact absurd (h _ (mem_of_getElem? hi) status rfl) (by omega)

/-- **When failed requests leave the invites alone.** In any interleaving, from any database: no request that ended
with an error status has changed an invite, and no invite has made two accounts, in every state reached, exactly if no
request fails between its consumption and its response: its email and its user id are free, and the database answers. -/
theorem invites_survive_iff (site : Site) (db : Db) (acts : List Act) :
    (∀ n, FailuresLeaveInvites site { db := db } (acts.take n) ∧
        ∀ token, (run site { db := db } (acts.take n)).issued token ≤ 1) ↔
      Runs.Legal (step site) (fun w act => burns w act = false) { db := db } acts := by
  have hstart : NoLoss { db := db } := fun t ht => absurd ht not_mem_nil
  have hfresh : OneAccount { db := db } := fun token => Nat.zero_le _
  have hone : ∀ n token, (run site { db := db } (acts.take n)).issued token ≤ 1 := by
    intro n token
    have h := Runs.run_inv (step site) OneAccount (fun w act hw => step_oneAccount site hw act) (acts.take n) hfresh
    calc (run site { db := db } (acts.take n)).issued token
        ≤ (run site { db := db } (acts.take n)).stock token := Nat.le_add_right _ _
      _ ≤ ((run site { db := db } (acts.take n)).isUsed token).toNat := h token
      _ ≤ 1 := Bool.toNat_le _
  rw [← Runs.legal_iff (step site) _ NoLoss (fun w act hw => step_noLoss site hw act) acts hstart]
  constructor
  · intro h n
    exact (failuresLeaveInvites_iff site db _).1 (h n).1
  · intro h n
    exact ⟨(failuresLeaveInvites_iff site db _).2 (h n), hone n⟩

/-- an org with its user, an invite of that org, and an acceptance of it with that user's email -/
def takenEmail : List Act :=
  [.register ⟨"acme".toList, "ann@acme.example".toList, []⟩, .step 0 { id := "o".toList }, .step 0 { id := "u".toList },
    .step 0 {}, .invite { orgId := "o".toList } { id := "t".toList }, .accept ⟨"t".toList, "ann@acme.example".toList⟩,
    .step 1 {}, .step 1 {}, .step 1 { id := "v".toList }]

/-- **An acceptance that answers 409 has used the invite up.** -/
theorem taken_email_burns_invite :
    (run {} {} takenEmail).tasks[1]? = some (.responded 409 true) ∧
      ((run {} {} takenEmail).db.getOrgInvite "t".toList 0).isNone ∧
      ((run {} {} (takenEmail.take 6)).db.getOrgInvite "t".toList 0).isSome ∧
      ¬ FailuresLeaveInvites {} {} takenEmail := by
  refine ⟨by decide, by decide, by decide, ?_⟩
  intro h
  exact h 1 409 true (by decide) (by decide) (by decide)

end Teardrop.Signup
