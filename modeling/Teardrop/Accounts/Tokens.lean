/-
Refresh tokens (`teardrop/users/tokens.py`) and the two endpoints on them (`/auth/refresh` and `/auth/logout` of
`teardrop/routers/auth.py`): any number of calls, one statement at a time. A rotation is a transaction that locks the old row,
inserts the new one and revokes the old with a pointer to it (`successor_token`, a foreign key with ON DELETE SET NULL); a
statement on a locked row waits. `links` logs the rotations that were committed and `responses` the tokens that were returned.
Tokens drawn are distinct (`drawsNew`).
-/
import Teardrop.Core.Json
import Teardrop.Accounts.Nonces

namespace Teardrop.Accounts

open Option List Table

/-! ## The table -/

/-- a row of `refresh_tokens` -/
structure TokenRow where
  token : String
  userId : String
  orgId : String
  authMethod : String
  extraClaims : Json
  createdAt : ℤ
  expiresAt : ℤ
  revoked : Bool := false
  successorToken : Option String := none

/-- what a refresh returns, the access token as its subject and claims -/
structure TokenResponse where
  userId : String
  extraClaims : Json
  refreshToken : String

/-- `extra = row["extra_claims"]`, NULL as the empty dict -/
def claimsOf (r : TokenRow) : Json :=
  match r.extraClaims with
  | .null => .obj []
  | j => j

/-- what one step finds outside the program -/
structure TokenEnv where
  /-- `NOW()` of the server and `datetime.now` of the process -/
  now : ℤ := 0
  clock : ℤ := 0
  /-- `token_urlsafe(32)` -/
  token : String := ""
  /-- the statement, or the commit, fails and the transaction is rolled back -/
  fault : Bool := false

structure TokenSettings where
  refreshTokenExpireDays : ℤ := 30
  refreshTokenIdempotencyWindowSeconds : ℤ := 60

/-- a call of the refresh endpoint -/
inductive RefreshTask where
  | refresh (old : String)
  /-- in `rotate_refresh_token`, before its SELECT ... FOR UPDATE -/
  | rotate (old : String) (now : ℤ) (newToken : String) (newExpiresAt : ℤ)
  /-- the row of the old token is read and locked -/
  | locked (row : TokenRow) (now : ℤ) (newToken : String) (newExpiresAt : ℤ)
  /-- the rotation returned None -/
  | replay (old : String)
  | refreshed (old : String) (r : TokenResponse)
  | unauthorized
  | failed

namespace RefreshTask

/-- the row a task has locked -/
def lock : RefreshTask → Option String
  | .locked row _ _ _ => some row.token
  | _ => none

/-- the token a task has drawn and not yet stored -/
def drawn? : RefreshTask → Option String
  | .rotate _ _ newToken _ => some newToken
  | .locked _ _ newToken _ => some newToken
  | _ => none

end RefreshTask

structure TokenWorld where
  rows : Table TokenRow.token := Table.empty
  tasks : List RefreshTask := []
  drawn : List String := []
  links : List (String × String) := []
  responses : List (String × TokenResponse) := []

def days (n : ℤ) : ℤ := n * 86400000000

/-! ## Statements -/

namespace TokenWorld

def isLocked (w : TokenWorld) (token : String) : Bool := w.tasks.any (fun t => t.lock = some token)

/-- the row a rotation inserts for the row it read -/
def successorRow (row : TokenRow) (now : ℤ) (newToken : String) (newExpiresAt : ℤ) : TokenRow :=
  { token := newToken, userId := row.userId, orgId := row.orgId, authMethod := row.authMethod,
    extraClaims := claimsOf row, createdAt := now, expiresAt := newExpiresAt }

/-- the writes of a rotation: the INSERT, and the UPDATE of the old row -/
def rotateRows (w : TokenWorld) (row : TokenRow) (now : ℤ) (newToken : String) (newExpiresAt : ℤ) :
    Option (Table TokenRow.token) :=
  (w.rows.insert? (successorRow row now newToken newExpiresAt)).map (fun t => t.update
    (fun r => if r.token = row.token then { r with revoked := true, successorToken := some newToken } else r)
    (fun _ => by split <;> rfl))

/-- `get_refresh_token_successor` -/
def refreshTokenSuccessor (w : TokenWorld) (old : String) (now : ℤ) : Option TokenRow :=
  ((w.rows.get? old).bind TokenRow.successorToken).bind (fun s => (w.rows.get? s).filter (fun r => now < r.expiresAt))

def revokeRefreshToken (w : TokenWorld) (token : String) : TokenWorld :=
  if w.isLocked token then w
  else { w with
    rows := w.rows.update (fun r => if r.token = token then { r with revoked := true } else r) (fun _ => by split <;> rfl) }

def isStale (now : ℤ) (r : TokenRow) : Bool := r.revoked && decide (r.expiresAt < now)

/-- `cleanup_expired_refresh_tokens`, with what the foreign key does to pointers at a deleted row -/
def cleanupExpiredRefreshTokens (w : TokenWorld) (now : ℤ) : TokenWorld :=
  { w with
    rows := (w.rows.filter (fun r => !isStale now r)).update
      (fun r => { r with successorToken := r.successorToken.filter (fun s => !(w.rows.get? s).any (isStale now)) })
      (fun _ => rfl) }

def createRefreshToken (s : TokenSettings) (w : TokenWorld) (e : TokenEnv) (user org method : String) (claims : Json) :
    TokenWorld :=
  let w := { w with drawn := w.drawn ++ [e.token] }
  if e.fault then w
  else match w.rows.insert? { token := e.token, userId := user, orgId := org, authMethod := method, extraClaims := claims,
                              createdAt := e.clock, expiresAt := e.clock + days s.refreshTokenExpireDays } with
    | none => w
    | some t => { w with rows := t }

end TokenWorld

/-! ## The endpoint -/

/-- the SELECT of the rotation -/
def rotateRead (e : TokenEnv) (w : TokenWorld) (old : String) (now : ℤ) (newToken : String) (newExpiresAt : ℤ) :
    RefreshTask :=
  if w.isLocked old then .rotate old now newToken newExpiresAt
  else if e.fault then .failed
  else match w.rows.get? old with
    | none => .replay old
    | some row => if row.revoked ∨ row.expiresAt < now then .replay old else .locked row now newToken newExpiresAt

/-- the answer of the replay -/
def replayAnswer (s : TokenSettings) (e : TokenEnv) (w : TokenWorld) (old : String) : Option TokenRow :=
  (w.refreshTokenSuccessor old e.now).filter
    (fun r => e.clock - r.createdAt ≤ seconds s.refreshTokenIdempotencyWindowSeconds)

def RefreshTask.step (s : TokenSettings) (e : TokenEnv) (w : TokenWorld) : RefreshTask → TokenWorld × RefreshTask
  | .refresh old =>
    ({ w with drawn := w.drawn ++ [e.token] }, .rotate old e.clock e.token (e.clock + days s.refreshTokenExpireDays))
  | .rotate old now newToken newExpiresAt => (w, rotateRead e w old now newToken newExpiresAt)
  | .locked row now newToken newExpiresAt =>
    if e.fault then (w, .failed)
    else match w.rotateRows row now newToken newExpiresAt with
      | none => (w, .failed)
      | some t =>
        let r : TokenResponse := ⟨row.userId, claimsOf row, newToken⟩
        ({ w with rows := t, links := w.links ++ [(row.token, newToken)], responses := w.responses ++ [(row.token, r)] },
          .refreshed row.token r)
  | .replay old =>
    if e.fault then (w, .failed)
    else match replayAnswer s e w old with
      | none => (w, .unauthorized)
      | some row =>
        let r : TokenResponse := ⟨row.userId, claimsOf row, row.token⟩
        ({ w with responses := w.responses ++ [(old, r)] }, .refreshed old r)
  | t => (w, t)

inductive TokenAct where
  | create (e : TokenEnv) (user org method : String) (claims : Json)
  | refresh (old : String)
  | advance (i : ℕ) (e : TokenEnv)
  | crash (i : ℕ)
  | logout (token : String)
  | cleanup (now : ℤ)

def tokenStep (s : TokenSettings) (w : TokenWorld) : TokenAct → TokenWorld
  | .create e user org method claims => w.createRefreshToken s e user org method claims
  | .refresh old => { w with tasks := w.tasks ++ [.refresh old] }
  | .advance i e =>
    match w.tasks[i]? with
    | none => w
    | some t => { (t.step s e w).1 with tasks := w.tasks.set i (t.step s e w).2 }
  | .crash i => { w with tasks := w.tasks.set i .failed }
  | .logout token => w.revokeRefreshToken token
  | .cleanup now => w.cleanupExpiredRefreshTokens now

def tokenRun (s : TokenSettings) (w : TokenWorld) (acts : List TokenAct) : TokenWorld := Runs.run (tokenStep s) w acts

/-- the token an act draws -/
def TokenAct.draw? (w : TokenWorld) : TokenAct → Option String
  | .create e _ _ _ _ => some e.token
  | .advance i e =>
    match w.tasks[i]? with
    | some (.refresh _) => some e.token
    | _ => none
  | _ => none

/-- `token_urlsafe` gives a token that was not drawn before -/
def drawsNew (w : TokenWorld) (a : TokenAct) : Bool := (a.draw? w).all (fun t => t ∉ w.drawn)

/-! ## The invariant -/

/-- the rows and the log of rotations -/
structure Chained (w : TokenWorld) : Prop where
  known : ∀ x r, w.rows.get? x = some r → x ∈ w.drawn
  linked : ∀ o n, (o, n) ∈ w.links → o ∈ w.drawn ∧ n ∈ w.drawn
  successor : ∀ o n n', (o, n) ∈ w.links → (o, n') ∈ w.links → n = n'
  predecessor : ∀ o o' n, (o, n) ∈ w.links → (o', n) ∈ w.links → o = o'
  spent : ∀ o n r, (o, n) ∈ w.links → w.rows.get? o = some r → r.revoked = true
  pointer : ∀ o r n, w.rows.get? o = some r → r.successorToken = some n → (o, n) ∈ w.links
  /-- a pointer is gone only with the row it pointed at -/
  kept : ∀ o n r r', (o, n) ∈ w.links → w.rows.get? o = some r → w.rows.get? n = some r' → r.successorToken = some n
  returned : ∀ o p, (o, p) ∈ w.responses → (o, p.refreshToken) ∈ w.links

/-- the rotations under way -/
structure Staged (w : TokenWorld) : Prop where
  exclusive : Locks.Exclusive RefreshTask.lock w.tasks
  held : ∀ row now n x, RefreshTask.locked row now n x ∈ w.tasks → w.rows.get? row.token = some row ∧ row.revoked = false
  distinct : Locks.Exclusive RefreshTask.drawn? w.tasks
  fresh : ∀ t ∈ w.tasks, ∀ n, t.drawn? = some n →
    n ∈ w.drawn ∧ w.rows.get? n = none ∧ ∀ o o', (o, o') ∈ w.links → n ≠ o ∧ n ≠ o'

structure Linked (w : TokenWorld) : Prop extends Chained w, Staged w

theorem start_linked : Linked {} where
  known x r h := by cases h
  linked o n h := by cases h
  successor o n n' h := by cases h
  predecessor o o' n h := by cases h
  spent o n r h := by cases h
  pointer o r n h := by cases h
  kept o n r r' h := by cases h
  returned o p h := by cases h
  exclusive := Locks.Exclusive.nil
  held row now n x h := by cases h
  distinct := Locks.Exclusive.nil
  fresh t h := by cases h

variable {i : ℕ} {w : TokenWorld} {row : TokenRow} (s : TokenSettings) {old newToken : String}

theorem mem_of_mem_set {tasks : List RefreshTask} {a t : RefreshTask} (h : a ∈ tasks.set i t) : a ∈ tasks ∨ a = t :=
  mem_or_eq_of_mem_set h

theorem Chained.withTasks (h : Chained w) (tasks : List RefreshTask) : Chained { w with tasks := tasks } :=
  ⟨h.known, h.linked, h.successor, h.predecessor, h.spent, h.pointer, h.kept, h.returned⟩

theorem Linked.put (h : Linked w) {t t' : RefreshTask} (hi : w.tasks[i]? = some t) (hlock : t'.lock = none)
    (hdrawn : t'.drawn? = none ∨ t'.drawn? = t.drawn?) : Linked { w with tasks := w.tasks.set i t' } where
  toChained := h.toChained.withTasks _
  exclusive := h.exclusive.release hi hlock
  held row now n x hmem := by
    rcases mem_of_mem_set hmem with hold | rfl
    · exact h.held row now n x hold
    · cases hlock
  distinct := by
    rcases hdrawn with hnone | hsame
    · exact h.distinct.release hi hnone
    · exact h.distinct.keep hi hsame
  fresh a hmem n hn := by
    rcases mem_of_mem_set hmem with hold | rfl
    · exact h.fresh a hold n hn
    · rcases hdrawn with hnone | hsame
      · rw [hnone] at hn
        cases hn
      · rw [hsame] at hn
        exact h.fresh t (mem_of_getElem? hi) n hn

/-- rows that are revoked, deleted, or lose a pointer at a deleted row -/
structure Fades (w : TokenWorld) (rows : Table TokenRow.token) : Prop where
  row : ∀ x r', rows.get? x = some r' → ∃ r, w.rows.get? x = some r ∧ (r.revoked = true → r'.revoked = true) ∧
    (r'.successorToken = r.successorToken ∨ (r'.successorToken = none ∧ ∀ n, r.successorToken = some n → rows.get? n = none))
  held : ∀ row now n x, RefreshTask.locked row now n x ∈ w.tasks → rows.get? row.token = some row

theorem Linked.fades {rows : Table TokenRow.token} (h : Linked w) (hf : Fades w rows) : Linked { w with rows := rows } where
  known x r' hr' := by
    obtain ⟨r, hr, -⟩ := hf.row x r' hr'
    exact h.known x r hr
  linked := h.linked
  successor := h.successor
  predecessor := h.predecessor
  spent o n r' hlink hr' := by
    obtain ⟨r, hr, hrevoked, -⟩ := hf.row o r' hr'
    exact hrevoked (h.spent o n r hlink hr)
  pointer o r' n hr' hn := by
    obtain ⟨r, hr, -, hsame | ⟨hnone, -⟩⟩ := hf.row o r' hr'
    · rw [hsame] at hn
      exact h.pointer o r n hr hn
    · rw [hnone] at hn
      cases hn
  kept o n r' q' hlink hr' hq' := by
    obtain ⟨r, hr, -, hcase⟩ := hf.row o r' hr'
    obtain ⟨q, hq, -⟩ := hf.row n q' hq'
    have hn := h.kept o n r q hlink hr hq
    rcases hcase with hsame | ⟨-, hgone⟩
    · rw [hsame]
      exact hn
    · have hnone : rows.get? n = none := hgone n hn
      rw [hnone] at hq'
      cases hq'
  returned := h.returned
  exclusive := h.exclusive
  held row now n x hmem := ⟨hf.held row now n x hmem, (h.held row now n x hmem).2⟩
  distinct := h.distinct
  fresh t ht n hn := by
    obtain ⟨hdrawn, hnone, hlinks⟩ := h.fresh t ht n hn
    refine ⟨hdrawn, ?_, hlinks⟩
    match hr : rows.get? n with
    | none => rfl
    | some r' =>
      obtain ⟨r, hr₀, -⟩ := hf.row n r' hr
      rw [hnone] at hr₀
      cases hr₀

/-! ## Statements keep it -/

namespace TokenWorld

theorem not_locked {token : String} (h : ¬ w.isLocked token = true) {row : TokenRow} {now x : ℤ} {n : String}
    (hmem : RefreshTask.locked row now n x ∈ w.tasks) : row.token ≠ token := by
  rintro rfl
  apply h
  exact any_eq_true.2 ⟨_, hmem, decide_eq_true rfl⟩

theorem linked_revoke (h : Linked w) (token : String) : Linked (w.revokeRefreshToken token) := by
  unfold revokeRefreshToken
  split_ifs with hlocked
  · exact h
  · apply h.fades
    constructor
    · intro x r' hr'
      rw [get?_update] at hr'
      obtain ⟨r, hr, rfl⟩ := map_eq_some_iff.1 hr'
      refine ⟨r, hr, ?_, .inl ?_⟩
      · intro hrevoked
        split_ifs
        · rfl
        · exact hrevoked
      · split_ifs <;> rfl
    · intro row now n x hmem
      rw [get?_update, (h.held row now n x hmem).1, map_some, if_neg (not_locked hlocked hmem)]

theorem get?_cleanup (w : TokenWorld) (now : ℤ) (x : String) :
    (w.cleanupExpiredRefreshTokens now).rows.get? x = ((w.rows.get? x).filter (fun r => !isStale now r)).map (fun r =>
      { r with successorToken := r.successorToken.filter (fun s => !(w.rows.get? s).any (isStale now)) }) := by
  unfold cleanupExpiredRefreshTokens
  rw [get?_update, get?_filter]

theorem linked_cleanup (h : Linked w) (now : ℤ) : Linked (w.cleanupExpiredRefreshTokens now) := by
  apply h.fades
  constructor
  · intro x r' hr'
    have hget := get?_cleanup w now x
    unfold cleanupExpiredRefreshTokens at hget
    rw [hget] at hr'
    obtain ⟨r, hr, rfl⟩ := map_eq_some_iff.1 hr'
    refine ⟨r, (filter_eq_some_iff.1 hr).1, fun hrevoked => hrevoked, ?_⟩
    match hs : r.successorToken with
    | none => exact .inl rfl
    | some n =>
      by_cases hstale : (w.rows.get? n).any (isStale now) = true
      · refine .inr ⟨by simp [Option.filter, hstale], ?_⟩
        rintro _ ⟨⟩
        have hn := get?_cleanup w now n
        unfold cleanupExpiredRefreshTokens at hn
        rw [hn]
        obtain ⟨q, hq, hgone⟩ := any_eq_true _ _ |>.1 hstale
        rw [hq]
        simp [hgone]
      · exact .inl (by simp [Option.filter, hstale])
  · intro row t n x hmem
    obtain ⟨hrow, hactive⟩ := h.held row t n x hmem
    have hget := get?_cleanup w now row.token
    unfold cleanupExpiredRefreshTokens at hget
    rw [hget, hrow]
    -- a locked row is not revoked, so it has no successor and is not deleted
    have hnone : row.successorToken = none := by
      by_contra hsome
      obtain ⟨s, hs⟩ := ne_none_iff_exists'.1 hsome
      have hrevoked := h.spent row.token s row (h.pointer row.token row s hrow hs) hrow
      rw [hactive] at hrevoked
      cases hrevoked
    have hstays : isStale now row = false := by simp [isStale, hactive]
    simp only [filter_some, hstays, Bool.not_false, if_true, map_some, hnone, filter_none]
    rw [← hnone]

end TokenWorld

theorem Linked.drew (h : Linked w) (token : String) : Linked { w with drawn := w.drawn ++ [token] } where
  known x r hr := mem_append_left _ (h.known x r hr)
  linked o n hlink := ⟨mem_append_left _ (h.linked o n hlink).1, mem_append_left _ (h.linked o n hlink).2⟩
  successor := h.successor
  predecessor := h.predecessor
  spent := h.spent
  pointer := h.pointer
  kept := h.kept
  returned := h.returned
  exclusive := h.exclusive
  held := h.held
  distinct := h.distinct
  fresh t ht n hn := ⟨mem_append_left _ (h.fresh t ht n hn).1, (h.fresh t ht n hn).2⟩

theorem Linked.insert (h : Linked w) {t : Table TokenRow.token} (hins : w.rows.insert? row = some t)
    (hdrawn : row.token ∈ w.drawn) (hlinks : ∀ o n, (o, n) ∈ w.links → row.token ≠ o ∧ row.token ≠ n)
    (hstaged : ∀ a ∈ w.tasks, a.drawn? ≠ some row.token) (hsucc : row.successorToken = none) :
    Linked { w with rows := t } := by
  have hget := get?_insert hins
  have old : ∀ {x r}, t.get? x = some r → row.token ≠ x → w.rows.get? x = some r := by
    intro x r hr hx
    rw [hget x, if_neg hx] at hr
    exact hr
  exact {
    known := by
      intro x r hr
      by_cases hx : row.token = x
      · rw [← hx]
        exact hdrawn
      · exact h.known x r (old hr hx)
    linked := h.linked
    successor := h.successor
    predecessor := h.predecessor
    spent := by
      intro o n r hlink hr
      exact h.spent o n r hlink (old hr (hlinks o n hlink).1)
    pointer := by
      intro o r n hr hn
      by_cases hx : row.token = o
      · have hsame : t.get? o = some row := (hget o).trans (if_pos hx)
        rw [hsame] at hr
        cases hr
        rw [hsucc] at hn
        cases hn
      · exact h.pointer o r n (old hr hx) hn
    kept := by
      intro o n r r' hlink hr hr'
      exact h.kept o n r r' hlink (old hr (hlinks o n hlink).1) (old hr' (hlinks o n hlink).2)
    returned := h.returned
    exclusive := h.exclusive
    held := by
      intro row' now n x hmem
      obtain ⟨hrow, hactive⟩ := h.held row' now n x hmem
      have hne : row.token ≠ row'.token := by
        intro heq
        have hnone := (insert?_eq_some hins).1
        rw [heq, hrow] at hnone
        cases hnone
      exact ⟨(hget row'.token).trans ((if_neg hne).trans hrow), hactive⟩
    distinct := h.distinct
    fresh := by
      intro a ha n hn
      obtain ⟨hd, hnone, hl⟩ := h.fresh a ha n hn
      refine ⟨hd, ?_, hl⟩
      have hne : row.token ≠ n := by
        rintro rfl
        exact hstaged a ha hn
      exact (hget n).trans ((if_neg hne).trans hnone) }

theorem linked_create (h : Linked w) (e : TokenEnv) (user org method : String) (claims : Json) (hnew : e.token ∉ w.drawn) :
    Linked (w.createRefreshToken s e user org method claims) := by
  have hdrew := h.drew e.token
  unfold TokenWorld.createRefreshToken
  dsimp only
  split_ifs
  · exact hdrew
  · split
    · exact hdrew
    · rename_i t hins
      refine hdrew.insert hins (mem_append_right _ mem_cons_self) ?_ ?_ rfl
      · intro o n hlink
        obtain ⟨ho, hn⟩ := h.linked o n hlink
        refine ⟨fun heq : e.token = o => hnew (heq ▸ ho), fun heq : e.token = n => hnew (heq ▸ hn)⟩
      · intro a ha hsame
        exact hnew (h.fresh a ha e.token hsame).1

theorem linked_begin (h : Linked w) (e : TokenEnv) (hi : w.tasks[i]? = some (.refresh old)) (hnew : e.token ∉ w.drawn)
    (now x : ℤ) : Linked { w with drawn := w.drawn ++ [e.token], tasks := w.tasks.set i (.rotate old now e.token x) } := by
  have hdrew := h.drew e.token
  have hunheld : e.token ∉ Locks.held RefreshTask.drawn? w.tasks := by
    intro hmem
    obtain ⟨a, ha, hn⟩ := mem_filterMap.1 hmem
    exact hnew (h.fresh a ha e.token hn).1
  exact {
    toChained := hdrew.toChained.withTasks _
    exclusive := h.exclusive.release hi rfl
    held := by
      intro row t n y hmem
      rcases mem_of_mem_set hmem with hold | heq
      · exact h.held row t n y hold
      · cases heq
    distinct := h.distinct.acquire hi rfl (b := .rotate old now e.token x) rfl hunheld
    fresh := by
      intro a ha n hn
      rcases mem_of_mem_set ha with hold | rfl
      · exact hdrew.fresh a hold n hn
      · cases hn
        refine ⟨mem_append_right _ mem_cons_self, ?_, ?_⟩
        · match hr : w.rows.get? e.token with
          | none => rfl
          | some r => exact absurd (h.known _ r hr) hnew
        · intro o o' hlink
          obtain ⟨ho, ho'⟩ := h.linked o o' hlink
          exact ⟨fun heq => hnew (heq ▸ ho), fun heq => hnew (heq ▸ ho')⟩ }

theorem linked_lock (h : Linked w) {now x : ℤ} (hi : w.tasks[i]? = some (.rotate old now newToken x))
    (hfree : ¬ w.isLocked old = true) (hrow : w.rows.get? old = some row) (hactive : row.revoked = false) :
    Linked { w with tasks := w.tasks.set i (.locked row now newToken x) } := by
  have hkey : row.token = old := key_of_get? hrow
  have hunheld : row.token ∉ Locks.held RefreshTask.lock w.tasks := by
    intro hmem
    obtain ⟨a, ha, hl⟩ := mem_filterMap.1 hmem
    apply hfree
    exact any_eq_true.2 ⟨a, ha, decide_eq_true (hl.trans (congrArg some hkey))⟩
  exact {
    toChained := h.toChained.withTasks _
    exclusive := h.exclusive.acquire hi rfl (b := .locked row now newToken x) rfl hunheld
    held := by
      intro row' t n y hmem
      rcases mem_of_mem_set hmem with hold | heq
      · exact h.held row' t n y hold
      · cases heq
        rw [hkey]
        exact ⟨hrow, hactive⟩
    distinct := h.distinct.keep hi rfl
    fresh := by
      intro a ha n hn
      rcases mem_of_mem_set ha with hold | rfl
      · exact h.fresh a hold n hn
      · exact h.fresh _ (mem_of_getElem? hi) n hn }

theorem Linked.link (h : Linked w) {newRow : TokenRow} (hrow : w.rows.get? old = some row) (hactive : row.revoked = false)
    (hnew : w.rows.get? newToken = some newRow) (hlinks : ∀ o n, (o, n) ∈ w.links → newToken ≠ o ∧ newToken ≠ n)
    (hfree : ∀ a ∈ w.tasks, a.lock ≠ some old) :
    Linked { w with
      rows := w.rows.update
        (fun r => if r.token = old then { r with revoked := true, successorToken := some newToken } else r)
        (fun _ => by split <;> rfl)
      links := w.links ++ [(old, newToken)] } := by
  have hget := get?_update w.rows
    (fun r => if r.token = old then { r with revoked := true, successorToken := some newToken } else r)
    (fun _ => by split <;> rfl)
  -- an unrevoked row has no link yet
  have hunlinked : ∀ n, (old, n) ∉ w.links := by
    intro n hlink
    have hrevoked := h.spent old n row hlink hrow
    rw [hactive] at hrevoked
    cases hrevoked
  have hcases : ∀ {o n}, (o, n) ∈ w.links ++ [(old, newToken)] → (o, n) ∈ w.links ∨ (o = old ∧ n = newToken) := by
    intro o n hlink
    rcases mem_append.1 hlink with hlink | hlink
    · exact .inl hlink
    · rw [mem_singleton] at hlink
      cases hlink
      exact .inr ⟨rfl, rfl⟩
  exact {
    known := by
      intro x r hr
      obtain ⟨r₀, hr₀, -⟩ := map_eq_some_iff.1 ((hget x).symm.trans hr)
      exact h.known x r₀ hr₀
    linked := by
      intro o n hlink
      rcases hcases hlink with hlink | ⟨rfl, rfl⟩
      · exact h.linked o n hlink
      · exact ⟨h.known _ row hrow, h.known _ newRow hnew⟩
    successor := by
      intro o n n' hlink hlink'
      rcases hcases hlink with hl | ⟨rfl, rfl⟩
      · rcases hcases hlink' with hl' | ⟨rfl, rfl⟩
        · exact h.successor o n n' hl hl'
        · exact absurd hl (hunlinked n)
      · rcases hcases hlink' with hl' | ⟨-, rfl⟩
        · exact absurd hl' (hunlinked n')
        · rfl
    predecessor := by
      intro o o' n hlink hlink'
      rcases hcases hlink with hl | ⟨rfl, rfl⟩
      · rcases hcases hlink' with hl' | ⟨rfl, rfl⟩
        · exact h.predecessor o o' n hl hl'
        · exact absurd rfl (hlinks o _ hl).2
      · rcases hcases hlink' with hl' | ⟨rfl, -⟩
        · exact absurd rfl (hlinks o' _ hl').2
        · rfl
    spent := by
      intro o n r hlink hr
      obtain ⟨r₀, hr₀, rfl⟩ := map_eq_some_iff.1 ((hget o).symm.trans hr)
      have hkey : r₀.token = o := key_of_get? hr₀
      split_ifs with hold
      · rfl
      · rcases hcases hlink with hlink | ⟨rfl, -⟩
        · exact h.spent o n r₀ hlink hr₀
        · exact absurd hkey hold
    pointer := by
      intro o r n hr hn
      obtain ⟨r₀, hr₀, rfl⟩ := map_eq_some_iff.1 ((hget o).symm.trans hr)
      have hkey : r₀.token = o := key_of_get? hr₀
      split_ifs at hn with hold
      · cases hn
        rw [← hkey, hold]
        exact mem_append_right _ mem_cons_self
      · exact mem_append_left _ (h.pointer o r₀ n hr₀ hn)
    kept := by
      intro o n r r' hlink hr hr'
      obtain ⟨r₀, hr₀, rfl⟩ := map_eq_some_iff.1 ((hget o).symm.trans hr)
      obtain ⟨q₀, hq₀, -⟩ := map_eq_some_iff.1 ((hget n).symm.trans hr')
      have hkey : r₀.token = o := key_of_get? hr₀
      rcases hcases hlink with hl | ⟨rfl, rfl⟩
      · split_ifs with hold
        · rw [← hkey, hold] at hl
          exact absurd hl (hunlinked n)
        · exact h.kept o n r₀ q₀ hl hr₀ hq₀
      · rw [if_pos hkey]
    returned := by
      intro o p hp
      exact mem_append_left _ (h.returned o p hp)
    exclusive := h.exclusive
    held := by
      intro row' now n x hmem
      obtain ⟨hrow', hactive'⟩ := h.held row' now n x hmem
      have hne : ¬ row'.token = old := fun heq => hfree _ hmem (congrArg some heq)
      refine ⟨(hget row'.token).trans ?_, hactive'⟩
      rw [hrow', map_some, if_neg hne]
    distinct := h.distinct
    fresh := by
      intro a ha n hn
      obtain ⟨hd, hnone, hl⟩ := h.fresh a ha n hn
      refine ⟨hd, ?_, ?_⟩
      · refine (hget n).trans ?_
        rw [hnone]
        rfl
      · intro o o' hlink
        rcases hcases hlink with hlink | ⟨rfl, rfl⟩
        · exact hl o o' hlink
        · constructor
          · rintro rfl
            rw [hnone] at hrow
            cases hrow
          · rintro rfl
            rw [hnone] at hnew
            cases hnew }

theorem Linked.respond (h : Linked w) {r : TokenResponse} (hlink : (old, r.refreshToken) ∈ w.links) :
    Linked { w with responses := w.responses ++ [(old, r)] } where
  known := h.known
  linked := h.linked
  successor := h.successor
  predecessor := h.predecessor
  spent := h.spent
  pointer := h.pointer
  kept := h.kept
  returned o p hp := by
    rcases mem_append.1 hp with hp | hp
    · exact h.returned o p hp
    · rw [mem_singleton] at hp
      cases hp
      exact hlink
  exclusive := h.exclusive
  held := h.held
  distinct := h.distinct
  fresh := h.fresh

/-- **The commit of a rotation.** -/
theorem linked_commit (h : Linked w) {now x : ℤ} (hi : w.tasks[i]? = some (.locked row now newToken x))
    {t : Table TokenRow.token} (ht : w.rotateRows row now newToken x = some t) (r : TokenResponse)
    (hr : r.refreshToken = newToken) :
    Linked { w with
      rows := t
      tasks := w.tasks.set i (.refreshed row.token r)
      links := w.links ++ [(row.token, newToken)]
      responses := w.responses ++ [(row.token, r)] } := by
  obtain ⟨t₁, hins, rfl⟩ := map_eq_some_iff.1 ht
  have hmem : RefreshTask.locked row now newToken x ∈ w.tasks := mem_of_getElem? hi
  obtain ⟨hrow, hactive⟩ := h.held row now newToken x hmem
  obtain ⟨hdrawn, hnone, hlinks⟩ := h.fresh _ hmem newToken rfl
  have hput : Linked { w with tasks := w.tasks.set i (.refreshed row.token r) } := h.put hi rfl (.inl rfl)
  have others : ∀ a ∈ w.tasks.set i (.refreshed row.token r), a.drawn? ≠ some newToken ∧ a.lock ≠ some row.token := by
    intro a ha
    rcases Locks.mem_set hi ha with rfl | hrest
    · exact ⟨nofun, nofun⟩
    · exact ⟨h.distinct.apart hi rfl a hrest, h.exclusive.apart hi rfl a hrest⟩
  have hinsert := hput.insert hins hdrawn hlinks (fun a ha => (others a ha).1) rfl
  have hget := get?_insert hins
  have hne : newToken ≠ row.token := by
    rintro heq
    rw [heq, hrow] at hnone
    cases hnone
  have hold : t₁.get? row.token = some row := (hget row.token).trans ((if_neg hne).trans hrow)
  have hnew : t₁.get? newToken = some (TokenWorld.successorRow row now newToken x) := (hget newToken).trans (if_pos rfl)
  have hlinked := hinsert.link hold hactive hnew hlinks (fun a ha => (others a ha).2)
  refine hlinked.respond ?_
  rw [hr]
  exact mem_append_right _ mem_cons_self

/-! ## Steps and runs -/

theorem replayAnswer_some {s : TokenSettings} {e : TokenEnv} (h : replayAnswer s e w old = some row) :
    ∃ r, w.rows.get? old = some r ∧ r.successorToken = some row.token ∧ w.rows.get? row.token = some row := by
  obtain ⟨hsucc, -⟩ := filter_eq_some_iff.1 h
  obtain ⟨n, hn, hrow⟩ := bind_eq_some_iff.1 hsucc
  obtain ⟨r, hr, hrn⟩ := bind_eq_some_iff.1 hn
  obtain ⟨hget, -⟩ := filter_eq_some_iff.1 hrow
  have hkey : row.token = n := key_of_get? hget
  rw [hkey]
  exact ⟨r, hr, hrn, hget⟩

theorem advance_linked (h : Linked w) {t : RefreshTask} (hi : w.tasks[i]? = some t) (e : TokenEnv)
    (hnew : ∀ old, t = .refresh old → e.token ∉ w.drawn) :
    Linked { (t.step s e w).1 with tasks := w.tasks.set i (t.step s e w).2 } := by
  match t with
  | .refresh old => exact linked_begin h e hi (hnew old rfl) _ _
  | .rotate old now newToken x =>
    simp only [RefreshTask.step, rotateRead]
    split_ifs with hlocked hfault
    · exact h.put hi rfl (.inr rfl)
    · exact h.put hi rfl (.inl rfl)
    · split
      · exact h.put hi rfl (.inl rfl)
      · rename_i row hrow
        split_ifs with hdead
        · exact h.put hi rfl (.inl rfl)
        · rw [not_or, Bool.not_eq_true] at hdead
          exact linked_lock h hi hlocked hrow hdead.1
  | .locked row now newToken x =>
    simp only [RefreshTask.step]
    by_cases hfault : e.fault = true
    · rw [if_pos hfault]
      exact h.put hi rfl (.inl rfl)
    · rw [if_neg hfault]
      split
      · exact h.put hi rfl (.inl rfl)
      · rename_i rows hrows
        exact linked_commit h hi hrows ⟨row.userId, claimsOf row, newToken⟩ rfl
  | .replay old =>
    simp only [RefreshTask.step]
    by_cases hfault : e.fault = true
    · rw [if_pos hfault]
      exact h.put hi rfl (.inl rfl)
    · rw [if_neg hfault]
      split
      · exact h.put hi rfl (.inl rfl)
      · rename_i row hrow
        obtain ⟨r, hr, hsucc, -⟩ := replayAnswer_some hrow
        have hput : Linked { w with tasks := w.tasks.set i (.refreshed old ⟨row.userId, claimsOf row, row.token⟩) } :=
          h.put hi rfl (.inl rfl)
        exact hput.respond (h.pointer old r row.token hr hsucc)
  | .refreshed old r => exact h.put hi rfl (.inl rfl)
  | .unauthorized => exact h.put hi rfl (.inl rfl)
  | .failed => exact h.put hi rfl (.inl rfl)

theorem tokenStep_linked (h : Linked w) (a : TokenAct) (hnew : drawsNew w a = true) : Linked (tokenStep s w a) := by
  match a with
  | .create e user org method claims =>
    simp only [drawsNew, TokenAct.draw?, all_some, decide_eq_true_eq] at hnew
    exact linked_create s h e user org method claims hnew
  | .refresh old =>
    exact {
      toChained := h.toChained.withTasks _
      exclusive := h.exclusive.snoc rfl
      held := by
        intro row now n x hmem
        rcases mem_append.1 hmem with hold | hnew
        · exact h.held row now n x hold
        · simp at hnew
      distinct := h.distinct.snoc rfl
      fresh := by
        intro t ht n hn
        rcases mem_append.1 ht with hold | hnew
        · exact h.fresh t hold n hn
        · rw [mem_singleton.1 hnew] at hn
          cases hn }
  | .advance i e =>
    match hi : w.tasks[i]? with
    | none =>
      simp only [tokenStep, hi]
      exact h
    | some t =>
      simp only [tokenStep, hi]
      apply advance_linked s h hi e
      rintro old rfl
      simp only [drawsNew, TokenAct.draw?, hi, all_some, decide_eq_true_eq] at hnew
      exact hnew
  | .crash i =>
    match hi : w.tasks[i]? with
    | none =>
      have hsame : w.tasks.set i .failed = w.tasks := set_eq_of_length_le (getElem?_eq_none_iff.1 hi)
      simp only [tokenStep, hsame]
      exact h
    | some t => exact h.put hi rfl (.inl rfl)
  | .logout token => exact TokenWorld.linked_revoke h token
  | .cleanup now => exact TokenWorld.linked_cleanup h now

/-! ## Chains -/

/-- one token was rotated into the other -/
def Rotated (w : TokenWorld) (o n : String) : Prop := (o, n) ∈ w.links

/-- two tokens of one chain -/
def SameChain (w : TokenWorld) : String → String → Prop := Relation.EqvGen (Rotated w)

/-- along a relation with one successor and one predecessor, connected elements are in line -/
theorem in_line {α : Type} {r : α → α → Prop} (hr : Relator.RightUnique r) (hl : Relator.LeftUnique r) {a b : α}
    (h : Relation.EqvGen r a b) : Relation.ReflTransGen r a b ∨ Relation.ReflTransGen r b a := by
  have hl' : Relator.RightUnique (Function.swap r) := fun _ _ _ h₁ h₂ => hl h₁ h₂
  induction h with
  | rel a b hab => exact .inl (.single hab)
  | refl a => exact .inl .refl
  | symm a b _ ih => exact ih.symm
  | trans a b c _ _ ihab ihbc =>
    rcases ihab with hab | hba
    · rcases ihbc with hbc | hcb
      · exact .inl (hab.trans hbc)
      · -- `a` and `c` both lead to `b`
        have hline := Relation.ReflTransGen.total_of_right_unique hl' (Relation.reflTransGen_swap.2 hab)
          (Relation.reflTransGen_swap.2 hcb)
        simpa only [Relation.reflTransGen_swap, or_comm] using hline
    · rcases ihbc with hbc | hcb
      · exact Relation.ReflTransGen.total_of_right_unique hr hba hbc
      · exact .inr (hcb.trans hba)

theorem Linked.head_revoked (h : Linked w) {a b : String} (hab : Relation.ReflTransGen (Rotated w) a b) (hne : a ≠ b)
    (hrow : w.rows.get? a = some row) : row.revoked = true := by
  rcases Relation.ReflTransGen.cases_head hab with rfl | ⟨n, hlink, -⟩
  · exact absurd rfl hne
  · exact h.spent a n row hlink hrow

theorem Linked.one_active (h : Linked w) {a b : TokenRow} (ha : a ∈ w.rows.rows) (hb : b ∈ w.rows.rows)
    (hchain : SameChain w a.token b.token) (hactive : a.revoked = false) (hactive' : b.revoked = false) : a = b := by
  by_contra hab
  have hne : a.token ≠ b.token := by
    intro heq
    exact hab (inj_on_of_nodup_map w.rows.nodup ha hb heq)
  rcases in_line (fun o n n' => h.successor o n n') (fun o o' n => h.predecessor o o' n) hchain with hline | hline
  · have hrevoked := h.head_revoked hline hne (get?_of_mem ha)
    rw [hactive] at hrevoked
    cases hrevoked
  · have hrevoked := h.head_revoked hline hne.symm (get?_of_mem hb)
    rw [hactive'] at hrevoked
    cases hrevoked

/-- what holds of the tokens in every state -/
structure LinearChains (s : TokenSettings) (w : TokenWorld) : Prop where
  /-- a token is rotated once, and its row points at what it was rotated into -/
  successor : ∀ o n n', Rotated w o n → Rotated w o n' → n = n'
  pointer : ∀ r ∈ w.rows.rows, ∀ n, r.successorToken = some n → Rotated w r.token n
  /-- a chain has at most one token that is not revoked -/
  active : ∀ a ∈ w.rows.rows, ∀ b ∈ w.rows.rows, SameChain w a.token b.token → a.revoked = false → b.revoked = false → a = b
  /-- a call that does not rotate, or that stops, leaves every token as it was -/
  failed : ∀ i, (tokenStep s w (.crash i)).rows = w.rows ∧
    ∀ e, (tokenStep s w (.advance i e)).links = w.links → (tokenStep s w (.advance i e)).rows = w.rows
  /-- all tokens returned for one old token are its successor -/
  replayed : ∀ o r r', (o, r) ∈ w.responses → (o, r') ∈ w.responses → r.refreshToken = r'.refreshToken
  /-- inside the window, and while both rows are there and the successor has not expired, it is returned -/
  answered : ∀ o n r r' e, Rotated w o n → w.rows.get? o = some r → w.rows.get? n = some r' → e.now < r'.expiresAt →
    e.clock - r'.createdAt ≤ seconds s.refreshTokenIdempotencyWindowSeconds → e.fault = false →
    ∃ p, (RefreshTask.step s e w (.replay o)).2 = .refreshed o p ∧ p.refreshToken = n

theorem RefreshTask.step_rows (e : TokenEnv) (w : TokenWorld) (t : RefreshTask) (h : (t.step s e w).1.links = w.links) :
    (t.step s e w).1.rows = w.rows := by
  match t with
  | .refresh old => rfl
  | .rotate old now newToken x => rfl
  | .locked row now newToken x =>
    simp only [RefreshTask.step] at h ⊢
    by_cases hfault : e.fault = true
    · rw [if_pos hfault]
    · rw [if_neg hfault] at h ⊢
      split at h
      · rfl
      · simp at h
  | .replay old =>
    simp only [RefreshTask.step]
    by_cases hfault : e.fault = true
    · rw [if_pos hfault]
    · rw [if_neg hfault]
      split <;> rfl
  | .refreshed old r => rfl
  | .unauthorized => rfl
  | .failed => rfl

theorem replay_answered (h : Linked w) {o n : String} {r r' : TokenRow} (e : TokenEnv) (hlink : Rotated w o n)
    (hr : w.rows.get? o = some r) (hr' : w.rows.get? n = some r') (hlive : e.now < r'.expiresAt)
    (hage : e.clock - r'.createdAt ≤ seconds s.refreshTokenIdempotencyWindowSeconds) (hfault : e.fault = false) :
    ∃ p, (RefreshTask.step s e w (.replay o)).2 = .refreshed o p ∧ p.refreshToken = n := by
  have hsucc := h.kept o n r r' hlink hr hr'
  have hfound : w.refreshTokenSuccessor o e.now = some r' := by
    simp [TokenWorld.refreshTokenSuccessor, hr, hsucc, hr', hlive]
  have hanswer : replayAnswer s e w o = some r' := by
    unfold replayAnswer
    rw [hfound]
    exact filter_eq_some_iff.2 ⟨rfl, decide_eq_true hage⟩
  have hkey : r'.token = n := key_of_get? hr'
  refine ⟨⟨r'.userId, claimsOf r', r'.token⟩, ?_, hkey⟩
  simp [RefreshTask.step, hfault, hanswer]

theorem Linked.linear (h : Linked w) : LinearChains s w where
  successor o n n' := h.successor o n n'
  pointer r hr n hn := h.pointer r.token r n (get?_of_mem hr) hn
  active _ ha _ hb := h.one_active ha hb
  failed i := by
    refine ⟨rfl, fun e hlinks => ?_⟩
    match hi : w.tasks[i]? with
    | none => simp only [tokenStep, hi]
    | some t =>
      simp only [tokenStep, hi] at hlinks ⊢
      exact t.step_rows s e w hlinks
  replayed o r r' hr hr' := h.successor o _ _ (h.returned o r hr) (h.returned o r' hr')
  answered o n r r' e := replay_answered s h e

/-- **Refresh-token chains stay linear.** Over any interleaving of creations, rotations, replays, logouts and cleanups, statement
by statement, with faults and crashes: each token has at most one successor, a chain at most one token that is not revoked, a
rotation that fails changes no token, and all tokens returned for one old token are the same successor, as long as cleanup has
deleted neither row and the successor has not expired. -/
theorem refresh_chains_linear (s : TokenSettings) (acts : List TokenAct)
    (hnew : Runs.Legal (tokenStep s) (fun w a => drawsNew w a = true) {} acts) : LinearChains s (tokenRun s {} acts) :=
  (Runs.legal_inv (tokenStep s) _ Linked (fun _ a h hok => tokenStep_linked s h a hok) acts start_linked hnew).linear s

/-- two rotations of `t0` at once (tasks 0 and 1); the second finds the row locked, then revoked -/
def rotatedTwice : List TokenAct :=
  [.create { token := "t0" } "user" "org" "email" .null, .refresh "t0", .refresh "t0",
    .advance 0 { token := "t1", clock := 5 }, .advance 1 { token := "t2", clock := 5 }, .advance 0 {}, .advance 1 {},
    .advance 0 {}, .advance 1 {}, .advance 1 { now := 9, clock := 9 }]

theorem refresh_chains_linear_twice :
    (tokenRun {} {} rotatedTwice).responses.map (fun p => (p.1, p.2.refreshToken)) = [("t0", "t1"), ("t0", "t1")] ∧
      LinearChains {} (tokenRun {} {} rotatedTwice) :=
  ⟨by decide, refresh_chains_linear {} _ (by decide)⟩

/-- `t0` is rotated a second before it expires; cleanup runs when it has expired, and the client asks again -/
def cleanedUp : List TokenAct :=
  [.create { token := "t0" } "user" "org" "email" .null, .refresh "t0",
    .advance 0 { token := "t1", clock := days 30 - seconds 1 }, .advance 0 {}, .advance 0 {}, .cleanup (days 30 + seconds 1),
    .refresh "t0", .advance 1 { token := "t2", clock := days 30 + seconds 2 },
    .advance 1 { now := days 30 + seconds 2 }]

/-- **A replay that is refused.** Three seconds after the rotation, inside the window of sixty, the row of the expired token
is gone and the refresh is answered 401. -/
theorem replay_after_cleanup :
    Runs.Legal (tokenStep {}) (fun w a => drawsNew w a = true) {} cleanedUp ∧
      (tokenRun {} {} cleanedUp).responses.map (fun p => (p.1, p.2.refreshToken)) = [("t0", "t1")] ∧
      ∃ t, (tokenRun {} {} cleanedUp).tasks[1]? = some (.replay "t0") ∧
        (RefreshTask.step {} { now := days 30 + seconds 2, clock := days 30 + seconds 2 } (tokenRun {} {} cleanedUp)
          (.replay "t0")).2 = t ∧ t = .unauthorized :=
  ⟨by decide, by decide, _, rfl, rfl, rfl⟩

end Teardrop.Accounts
