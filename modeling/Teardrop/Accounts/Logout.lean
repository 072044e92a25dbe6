/-
What a logout leaves of a session (`/auth/logout` and `/auth/refresh`), over the model of `Tokens`. From the logout on no call
rotates a token of the chain (`Ended`). The replay of `/auth/refresh` reads the successor of a token without looking at its
`revoked` flag, so a later call still returns an access token while the successor is inside the replay window.
-/
import Teardrop.Accounts.Tokens

namespace Teardrop.Accounts

open Runs RefreshTask TokenWorld List Option

/-! ## After the logout -/

section Logout

variable (chain : String → Prop)

/-- the tokens of the chain are revoked, were drawn, and are drawn by no call under way -/
structure Ended (w : TokenWorld) : Prop extends Linked w where
  dead : ∀ x r, chain x → w.rows.get? x = some r → r.revoked = true
  issued : ∀ x, chain x → x ∈ w.drawn
  unstaged : ∀ t ∈ w.tasks, ∀ n, t.drawn? = some n → ¬ chain n

/-- no call after the first `calls` returned an access token for a token of the chain -/
def Refused (calls : ℕ) (w : TokenWorld) : Prop :=
  ∀ i, calls ≤ i → ∀ old r, w.tasks[i]? = some (.refreshed old r) → ¬ chain old

/-- a call after the first `calls` that looks up the successor of a token of the chain finds none that is live and inside
the window -/
def OutsideWindow (s : TokenSettings) (calls : ℕ) (w : TokenWorld) : TokenAct → Prop
  | .advance i e => calls ≤ i → ∀ old, w.tasks[i]? = some (.replay old) → chain old → e.fault = false →
      ∀ r n row, w.rows.get? old = some r → r.successorToken = some n → w.rows.get? n = some row →
        row.expiresAt ≤ e.now ∨ seconds s.refreshTokenIdempotencyWindowSeconds < e.clock - row.createdAt
  | _ => True

variable {chain}

variable {w : TokenWorld} {row : TokenRow} {t : RefreshTask} (s : TokenSettings)

theorem Ended.locked_outside (h : Ended chain w) {now x : ℤ} {n : String} (hmem : locked row now n x ∈ w.tasks) :
    ¬ chain row.token := by
  intro hchain
  obtain ⟨hrow, hactive⟩ := h.held row now n x hmem
  have hrevoked := h.dead row.token row hchain hrow
  rw [hactive] at hrevoked
  cases hrevoked

variable (chain)

/-- what one step does to the tokens of the chain -/
structure Keeps (w w' : TokenWorld) : Prop where
  rows : ∀ x r', chain x → w'.rows.get? x = some r' → ∃ r, w.rows.get? x = some r ∧ (r.revoked = true → r'.revoked = true)
  drawn : ∀ x ∈ w.drawn, x ∈ w'.drawn
  tasks : ∀ t ∈ w'.tasks, ∀ n, t.drawn? = some n → n ∉ w.drawn ∨ ∃ t ∈ w.tasks, t.drawn? = some n

variable {chain}

variable {w' : TokenWorld} {i : ℕ}

theorem Ended.keeps (h : Ended chain w) (hlinked : Linked w') (hkeeps : Keeps chain w w') : Ended chain w' where
  toLinked := hlinked
  dead x r' hx hr' := by
    obtain ⟨r, hr, hrevoked⟩ := hkeeps.rows x r' hx hr'
    exact hrevoked (h.dead x r hx hr)
  issued x hx := hkeeps.drawn x (h.issued x hx)
  unstaged t ht n hn hchain := by
    rcases hkeeps.tasks t ht n hn with hnew | ⟨t', ht', hn'⟩
    · exact hnew (h.issued n hchain)
    · exact h.unstaged t' ht' n hn' hchain

theorem keeps_put (hrows : w'.rows = w.rows) (hdrawn : w'.drawn = w.drawn) {t' : RefreshTask}
    (htasks : w'.tasks = w.tasks.set i t') (hi : w.tasks[i]? = some t) (hdraw : t'.drawn? = none ∨ t'.drawn? = t.drawn?) :
    Keeps chain w w' where
  rows x r' _ hr' := ⟨r', by rw [← hrows]; exact hr', id⟩
  drawn x hx := by rw [hdrawn]; exact hx
  tasks a ha n hn := by
    rw [htasks] at ha
    rcases mem_of_mem_set ha with hold | rfl
    · exact .inr ⟨a, hold, hn⟩
    · rcases hdraw with hnone | hsame
      · rw [hnone] at hn
        cases hn
      · rw [hsame] at hn
        exact .inr ⟨t, mem_of_getElem? hi, hn⟩

theorem keeps_create (h : Ended chain w) (e : TokenEnv) (user org method : String) (claims : Json)
    (hnew : e.token ∉ w.drawn) : Keeps chain w (w.createRefreshToken s e user org method claims) := by
  have hsame : Keeps chain w { w with drawn := w.drawn ++ [e.token] } :=
    ⟨fun x r' _ hr' => ⟨r', hr', id⟩, fun x hx => mem_append_left _ hx, fun t ht n hn => .inr ⟨t, ht, hn⟩⟩
  unfold createRefreshToken
  dsimp only
  split_ifs
  · exact hsame
  · split
    · exact hsame
    · rename_i rows hins
      refine ⟨fun x r' hx hr' => ?_, hsame.drawn, hsame.tasks⟩
      have hne : e.token ≠ x := by
        rintro rfl
        exact hnew (h.issued _ hx)
      have hget : rows.get? x = w.rows.get? x := (Table.get?_insert hins x).trans (if_neg hne)
      exact ⟨r', hget.symm.trans hr', id⟩

theorem keeps_commit (h : Ended chain w) {now x : ℤ} {newToken : String}
    (hi : w.tasks[i]? = some (.locked row now newToken x)) {rows : Table TokenRow.token}
    (hrows : w.rotateRows row now newToken x = some rows) (r : TokenResponse) (links : List (String × String))
    (responses : List (String × TokenResponse)) :
    Keeps chain w { w with
      rows := rows, tasks := w.tasks.set i (.refreshed row.token r), links := links, responses := responses } := by
  obtain ⟨t₁, hins, rfl⟩ := map_eq_some_iff.1 hrows
  have hunstaged : ¬ chain newToken := h.unstaged _ (mem_of_getElem? hi) newToken rfl
  refine ⟨fun y r' hy hr' => ?_, fun y hy => hy, fun a ha n hn => ?_⟩
  · have hupdate := Table.get?_update t₁
      (fun r => if r.token = row.token then { r with revoked := true, successorToken := some newToken } else r)
      (fun _ => by split <;> rfl) y
    replace hr' := hupdate.symm.trans hr'
    obtain ⟨q, hq, rfl⟩ := map_eq_some_iff.1 hr'
    have hne : newToken ≠ y := by
      rintro rfl
      exact hunstaged hy
    have hget : t₁.get? y = w.rows.get? y := (Table.get?_insert hins y).trans (if_neg hne)
    refine ⟨q, hget.symm.trans hq, fun hrevoked => ?_⟩
    split_ifs
    · rfl
    · exact hrevoked
  · rcases mem_of_mem_set ha with hold | rfl
    · exact .inr ⟨a, hold, hn⟩
    · cases hn

theorem keeps_advance (h : Ended chain w) (hi : w.tasks[i]? = some t) (e : TokenEnv)
    (hnew : ∀ old, t = .refresh old → e.token ∉ w.drawn) :
    Keeps chain w { (t.step s e w).1 with tasks := w.tasks.set i (t.step s e w).2 } := by
  match t with
  | .refresh old =>
    refine ⟨fun x r' _ hr' => ⟨r', hr', id⟩, fun x hx => mem_append_left _ hx, fun a ha n hn => ?_⟩
    rcases mem_of_mem_set ha with hold | rfl
    · exact .inr ⟨a, hold, hn⟩
    · cases hn
      exact .inl (hnew old rfl)
  | .rotate old now newToken x =>
    refine keeps_put rfl rfl rfl hi ?_
    simp only [step, rotateRead]
    split_ifs
    · exact .inr rfl
    · exact .inl rfl
    · split
      · exact .inl rfl
      · split_ifs
        · exact .inl rfl
        · exact .inr rfl
  | .locked row now newToken x =>
    simp only [step]
    by_cases hfault : e.fault = true
    · rw [if_pos hfault]
      exact keeps_put rfl rfl rfl hi (.inl rfl)
    · rw [if_neg hfault]
      split
      · exact keeps_put rfl rfl rfl hi (.inl rfl)
      · rename_i rows hrows
        exact keeps_commit h hi hrows _ _ _
  | .replay old =>
    simp only [step]
    by_cases hfault : e.fault = true
    · rw [if_pos hfault]
      exact keeps_put rfl rfl rfl hi (.inl rfl)
    · rw [if_neg hfault]
      split <;> exact keeps_put rfl rfl rfl hi (.inl rfl)
  | .refreshed old r => exact keeps_put rfl rfl rfl hi (.inl rfl)
  | .unauthorized => exact keeps_put rfl rfl rfl hi (.inl rfl)
  | .failed => exact keeps_put rfl rfl rfl hi (.inl rfl)

theorem keeps_revoke (w : TokenWorld) (token : String) : Keeps chain w (w.revokeRefreshToken token) := by
  unfold revokeRefreshToken
  split_ifs
  · exact ⟨fun x r' _ hr' => ⟨r', hr', id⟩, fun x hx => hx, fun t ht n hn => .inr ⟨t, ht, hn⟩⟩
  · refine ⟨fun x r' _ hr' => ?_, fun x hx => hx, fun t ht n hn => .inr ⟨t, ht, hn⟩⟩
    rw [Table.get?_update] at hr'
    obtain ⟨r, hr, rfl⟩ := map_eq_some_iff.1 hr'
    refine ⟨r, hr, fun hrevoked => ?_⟩
    split_ifs
    · rfl
    · exact hrevoked

theorem keeps_cleanup (w : TokenWorld) (now : ℤ) : Keeps chain w (w.cleanupExpiredRefreshTokens now) := by
  refine ⟨fun x r' _ hr' => ?_, fun x hx => hx, fun t ht n hn => .inr ⟨t, ht, hn⟩⟩
  rw [get?_cleanup] at hr'
  obtain ⟨r, hr, rfl⟩ := map_eq_some_iff.1 hr'
  exact ⟨r, (filter_eq_some_iff.1 hr).1, id⟩

theorem tokenStep_ended (h : Ended chain w) (a : TokenAct) (hnew : drawsNew w a = true) : Ended chain (tokenStep s w a) := by
  refine h.keeps (tokenStep_linked s h.toLinked a hnew) ?_
  cases a with
  | create e user org method claims =>
    simp only [drawsNew, TokenAct.draw?, all_some, decide_eq_true_eq] at hnew
    exact keeps_create s h e user org method claims hnew
  | refresh old =>
    refine ⟨fun x r' _ hr' => ⟨r', hr', id⟩, fun x hx => hx, fun t ht n hn => ?_⟩
    rcases mem_append.1 ht with hold | hlast
    · exact .inr ⟨t, hold, hn⟩
    · rw [mem_singleton.1 hlast] at hn
      cases hn
  | advance i e =>
    cases hi : w.tasks[i]? with
    | none =>
      simp only [tokenStep, hi]
      exact ⟨fun x r' _ hr' => ⟨r', hr', id⟩, fun x hx => hx, fun t ht n hn => .inr ⟨t, ht, hn⟩⟩
    | some t =>
      simp only [tokenStep, hi]
      apply keeps_advance s h hi e
      rintro old rfl
      simp only [drawsNew, TokenAct.draw?, hi, all_some, decide_eq_true_eq] at hnew
      exact hnew
  | crash i =>
    cases hi : w.tasks[i]? with
    | none =>
      have hsame : w.tasks.set i .failed = w.tasks := set_eq_of_length_le (getElem?_eq_none_iff.1 hi)
      simp only [tokenStep, hsame]
      exact ⟨fun x r' _ hr' => ⟨r', hr', id⟩, fun x hx => hx, fun t ht n hn => .inr ⟨t, ht, hn⟩⟩
    | some t => exact keeps_put rfl rfl rfl hi (.inl rfl)
  | logout token => exact keeps_revoke w token
  | cleanup now => exact keeps_cleanup w now

/-! ## Later calls -/

theorem refused_set {calls : ℕ} (h : Refused chain calls w) (htasks : w'.tasks = w.tasks.set i t)
    (hlt : i < w.tasks.length) : Refused chain calls w' ↔ (calls ≤ i → ∀ old r, t = .refreshed old r → ¬ chain old) := by
  constructor
  · rintro h' hcalls old r rfl
    refine h' i hcalls old r ?_
    rw [htasks, getElem?_set_self hlt]
  · intro ht j hj old r hget
    rw [htasks] at hget
    rcases Locks.getElem?_set_cases hget with ⟨rfl, hself⟩ | ⟨-, hget⟩
    · exact ht hj old r hself.symm
    · exact h j hj old r hget

theorem replayAnswer_none_iff (e : TokenEnv) (w : TokenWorld) (old : String) : replayAnswer s e w old = none ↔
      ∀ r n row, w.rows.get? old = some r → r.successorToken = some n → w.rows.get? n = some row →
        row.expiresAt ≤ e.now ∨ seconds s.refreshTokenIdempotencyWindowSeconds < e.clock - row.createdAt := by
  constructor
  · intro hnone r n row hold hsucc hrow
    by_contra hwithin
    rw [not_or, not_le, not_lt] at hwithin
    have hfound : w.refreshTokenSuccessor old e.now = some row := by
      simp [refreshTokenSuccessor, hold, hsucc, hrow, hwithin.1]
    unfold replayAnswer at hnone
    rw [hfound, filter_some, if_pos (decide_eq_true hwithin.2)] at hnone
    cases hnone
  · intro hok
    by_contra hsome
    obtain ⟨row, hanswer⟩ := ne_none_iff_exists'.1 hsome
    obtain ⟨r, hold, hsucc, hrow⟩ := replayAnswer_some hanswer
    obtain ⟨hfound, hage⟩ := filter_eq_some_iff.1 hanswer
    have hlive : e.now < row.expiresAt := by
      simpa [refreshTokenSuccessor, hold, hsucc, hrow, filter_some] using hfound
    rcases hok r row.token row hold hsucc hrow with hexpired | hlate
    · exact absurd hlive (not_lt.2 hexpired)
    · exact absurd (of_decide_eq_true hage) (not_le.2 hlate)

/-- what a call ends with when it ends with an access token: it held the lock of an unrevoked token, or it replayed -/
theorem step_refreshed {s : TokenSettings} {e : TokenEnv} {old : String} {r : TokenResponse}
    (h : (t.step s e w).2 = .refreshed old r) :
    t = .refreshed old r ∨ (∃ row now n x, t = .locked row now n x ∧ row.token = old) ∨
      (t = .replay old ∧ e.fault = false ∧ replayAnswer s e w old ≠ none) := by
  match t with
  | .refresh _ => cases h
  | .rotate old' now n x =>
    simp only [step, rotateRead] at h
    split_ifs at h
    split at h
    · cases h
    · split_ifs at h
  | .locked row now n x =>
    simp only [step] at h
    by_cases hfault : e.fault = true
    · rw [if_pos hfault] at h
      cases h
    · rw [if_neg hfault] at h
      split at h
      · cases h
      · cases h
        exact .inr (.inl ⟨row, now, n, x, rfl, rfl⟩)
  | .replay old' =>
    simp only [step] at h
    by_cases hfault : e.fault = true
    · rw [if_pos hfault] at h
      cases h
    · rw [if_neg hfault] at h
      split at h
      · cases h
      · rename_i row hrow
        cases h
        refine .inr (.inr ⟨rfl, by simpa using hfault, ?_⟩)
        rw [hrow]
        exact some_ne_none row
  | .refreshed _ _ => exact .inl h
  | .unauthorized => cases h
  | .failed => cases h

theorem replay_refreshed {s : TokenSettings} {e : TokenEnv} {old : String} (hfault : e.fault = false)
    (hanswer : replayAnswer s e w old ≠ none) : ∃ r, (step s e w (.replay old)).2 = .refreshed old r := by
  obtain ⟨row, hrow⟩ := ne_none_iff_exists'.1 hanswer
  exact ⟨⟨row.userId, claimsOf row, row.token⟩, by simp [step, hfault, hrow]⟩

/-- a step leaves the later calls refused exactly if it replays none of them inside the window -/
theorem refused_step_iff {calls : ℕ} (h : Ended chain w) (hrefused : Refused chain calls w) (a : TokenAct) :
    Refused chain calls (tokenStep s w a) ↔ OutsideWindow chain s calls w a := by
  cases a with
  | create e user org method claims =>
    have hsame : (tokenStep s w (.create e user org method claims)).tasks = w.tasks := by
      simp only [tokenStep, createRefreshToken]
      split_ifs
      · rfl
      · split <;> rfl
    simp only [OutsideWindow, iff_true, Refused, hsame]
    exact hrefused
  | refresh old =>
    simp only [OutsideWindow, iff_true]
    intro i hi old' r hget
    rcases mem_append.1 (mem_of_getElem? hget) with hold | hlast
    · by_cases hlt : i < w.tasks.length
      · have hget' : (w.tasks ++ [refresh old])[i]? = some (.refreshed old' r) := hget
        rw [getElem?_append_left hlt] at hget'
        exact hrefused i hi old' r hget'
      · have hget' : (w.tasks ++ [refresh old])[i]? = some (.refreshed old' r) := hget
        rw [getElem?_append_right (not_lt.1 hlt)] at hget'
        have hmem := mem_of_getElem? hget'
        cases mem_singleton.1 hmem
    · cases mem_singleton.1 hlast
  | advance i e =>
    cases hi : w.tasks[i]? with
    | none =>
      simp only [tokenStep, hi, OutsideWindow]
      refine ⟨fun _ _ old hold => ?_, fun _ => hrefused⟩
      cases hold
    | some t =>
      have hlt : i < w.tasks.length := (List.getElem?_eq_some_iff.1 hi).1
      simp only [tokenStep, hi, OutsideWindow]
      rw [refused_set hrefused rfl hlt]
      refine forall_congr' fun hcalls => ?_
      constructor
      · rintro hno old ⟨rfl⟩ hchain hfault
        refine (replayAnswer_none_iff s e w old).1 ?_
        by_contra hanswer
        obtain ⟨r, hr⟩ := replay_refreshed hfault hanswer
        exact hno old r hr hchain
      · intro hok old r ht hchain
        rcases step_refreshed ht with rfl | ⟨row, now, n, x, rfl, rfl⟩ | ⟨rfl, hfault, hanswer⟩
        · exact hrefused i hcalls old r hi hchain
        · exact h.locked_outside (mem_of_getElem? hi) hchain
        · exact hanswer ((replayAnswer_none_iff s e w old).2 (hok old rfl hchain hfault))
  | crash i =>
    simp only [OutsideWindow, iff_true]
    by_cases hlt : i < w.tasks.length
    · refine (refused_set hrefused rfl hlt).2 fun _ old r h => ?_
      cases h
    · have hsame : w.tasks.set i .failed = w.tasks := set_eq_of_length_le (not_lt.1 hlt)
      simp only [tokenStep, hsame]
      exact hrefused
  | logout token =>
    have hsame : (tokenStep s w (.logout token)).tasks = w.tasks := by
      simp only [tokenStep, revokeRefreshToken]
      split_ifs <;> rfl
    simp only [OutsideWindow, iff_true, Refused, hsame]
    exact hrefused
  | cleanup now =>
    simp only [OutsideWindow, iff_true]
    exact hrefused

theorem eqvGen_related {α : Type} {r : α → α → Prop} {a b : α} (h : Relation.EqvGen r a b) :
    a = b ∨ ((∃ y, r a y ∨ r y a) ∧ ∃ y, r b y ∨ r y b) := by
  induction h with
  | rel a b hab => exact .inr ⟨⟨b, .inl hab⟩, a, .inr hab⟩
  | refl a => exact .inl rfl
  | symm a b _ ih =>
    rcases ih with rfl | ⟨ha, hb⟩
    · exact .inl rfl
    · exact .inr ⟨hb, ha⟩
  | trans a b c _ _ ihab ihbc =>
    rcases ihab with rfl | ⟨ha, hb⟩
    · exact ihbc
    · rcases ihbc with rfl | ⟨-, hc⟩
      · exact .inr ⟨ha, hb⟩
      · exact .inr ⟨ha, hc⟩

/-- the tokens of the chain of a stored token were drawn, and no call is about to store one -/
theorem chain_drawn (h : Linked w) {c x : String} (hrow : w.rows.get? c = some row) (hchain : SameChain w x c) :
    x ∈ w.drawn ∧ ∀ t ∈ w.tasks, t.drawn? ≠ some x := by
  rcases eqvGen_related hchain with rfl | ⟨⟨y, hxy | hyx⟩, -⟩
  · refine ⟨h.known x row hrow, fun t ht hx => ?_⟩
    have hnone := (h.fresh t ht x hx).2.1
    rw [hrow] at hnone
    cases hnone
  · exact ⟨(h.linked x y hxy).1, fun t ht hx => ((h.fresh t ht x hx).2.2 x y hxy).1 rfl⟩
  · exact ⟨(h.linked y x hyx).2, fun t ht hx => ((h.fresh t ht x hx).2.2 y x hyx).2 rfl⟩

theorem logout_ended (h : Linked w) {c : String} (hrow : w.rows.get? c = some row) (hactive : row.revoked = false)
    (hfree : w.isLocked c = false) :
    Ended (fun x => SameChain w x c) (tokenStep s w (.logout c)) where
  toLinked := linked_revoke h c
  dead x r hx hr := by
    simp only [tokenStep, revokeRefreshToken, hfree, Bool.false_eq_true, if_false, Table.get?_update] at hr
    obtain ⟨q, hq, rfl⟩ := map_eq_some_iff.1 hr
    have hkey : q.token = x := Table.key_of_get? hq
    by_cases hqc : q.token = c
    · rw [if_pos hqc]
    · rw [if_neg hqc]
      -- another token of the chain is not the one that is not revoked
      by_contra hrevoked
      have hsame := h.one_active (Table.mem_of_get? hq) (Table.mem_of_get? hrow)
        (by rw [hkey, Table.key_of_get? hrow]; exact hx) (by simpa using hrevoked) hactive
      exact hqc (by rw [hsame]; exact Table.key_of_get? hrow)
  issued x hx := by
    simp only [tokenStep, revokeRefreshToken, hfree, Bool.false_eq_true, if_false]
    exact (chain_drawn h hrow hx).1
  unstaged t ht n hn hchain := by
    simp only [tokenStep, revokeRefreshToken, hfree, Bool.false_eq_true, if_false] at ht
    exact (chain_drawn h hrow hchain).2 t ht hn

/-- **Logout.** Let the current token of a chain be revoked in any reachable state. In what follows, no later call of the
refresh endpoint ever returns an access token for a token of the chain exactly if no later call that has failed to rotate
one finds its successor live and inside the replay window. -/
theorem logout_ends_session_iff (s : TokenSettings) (before after : List TokenAct) (c : String) (row : TokenRow)
    (hnew : Legal (tokenStep s) (fun w a => drawsNew w a = true) {} (before ++ .logout c :: after))
    (hrow : (tokenRun s {} before).rows.get? c = some row) (hactive : row.revoked = false)
    (hfree : (tokenRun s {} before).isLocked c = false) :
    let w := tokenRun s {} before
    (∀ n, Refused (fun x => SameChain w x c) w.tasks.length (tokenRun s (tokenStep s w (.logout c)) (after.take n))) ↔
      Legal (tokenStep s) (OutsideWindow (fun x => SameChain w x c) s w.tasks.length) (tokenStep s w (.logout c)) after := by
  intro w
  obtain ⟨hbefore, -, hafter⟩ := (legal_append _ _ _ _ _).1 hnew
  have hlinked : Linked w := legal_inv (tokenStep s) _ Linked (fun _ a h hok => tokenStep_linked s h a hok) before start_linked
    hbefore
  have htasks : (tokenStep s w (.logout c)).tasks = w.tasks := by
    simp [tokenStep, revokeRefreshToken, show w.isLocked c = false from hfree]
  refine legal_iff_under (tokenStep s) (Ended fun x => SameChain w x c) (Refused (fun x => SameChain w x c) w.tasks.length)
    (fun w a => drawsNew w a = true) _ (fun _ a h hok => tokenStep_ended s h a hok)
    (fun _ a h _ hrefused => refused_step_iff s h hrefused a) after (logout_ended s hlinked hrow hactive hfree) ?_ hafter
  intro i hi old r hget
  rw [htasks, getElem?_eq_none hi] at hget
  cases hget

end Logout

/-- `t0` is rotated into `t1` -/
def rotatedOnce : List TokenAct :=
  [.create { token := "t0" } "user" "org" "email" .null, .refresh "t0", .advance 0 { token := "t1" }, .advance 0 {},
    .advance 0 {}]

/-- a later call with `t0`, which looks up the successor at `now` -/
def refreshedAt (now : ℤ) : List TokenAct :=
  [.refresh "t0", .advance 1 { token := "t2", now := now, clock := now }, .advance 1 { now := now, clock := now },
    .advance 1 { now := now, clock := now }]

theorem rotatedOnce_chain : SameChain (tokenRun {} {} rotatedOnce) "t0" "t1" := by
  apply Relation.EqvGen.rel
  unfold Rotated
  decide

/-- an hour after the logout the older token is refused -/
theorem logout_ends_session_later : Refused (fun x => SameChain (tokenRun {} {} rotatedOnce) x "t1") 1
      (tokenRun {} (tokenStep {} (tokenRun {} {} rotatedOnce) (.logout "t1")) ((refreshedAt (seconds 3600)).take 4)) :=
  (logout_ends_session_iff {} rotatedOnce (refreshedAt (seconds 3600)) "t1" _ (by decide) rfl rfl
    (by decide)).2 (by
      refine ⟨trivial, ?_, ?_, ?_, trivial⟩
      · intro _ old hold
        cases hold
      · intro _ old hold
        cases hold
      · rintro - old ⟨⟩ - - r n row ⟨⟩ ⟨⟩ ⟨⟩
        exact .inr (by decide)) 4

/-- a second after the logout the older token is answered with an access token -/
theorem logout_replayed :
    (tokenRun {} (tokenStep {} (tokenRun {} {} rotatedOnce) (.logout "t1")) []).rows.rows.map TokenRow.revoked =
        [true, true] ∧
      ¬ ∀ n, Refused (fun x => SameChain (tokenRun {} {} rotatedOnce) x "t1") 1
        (tokenRun {} (tokenStep {} (tokenRun {} {} rotatedOnce) (.logout "t1")) ((refreshedAt (seconds 1)).take n)) := by
  refine ⟨by decide, fun hall => ?_⟩
  have hanswered : ∃ r, (tokenRun {} (tokenStep {} (tokenRun {} {} rotatedOnce) (.logout "t1"))
      ((refreshedAt (seconds 1)).take 4)).tasks[1]? = some (.refreshed "t0" r) := ⟨_, rfl⟩
  obtain ⟨r, hr⟩ := hanswered
  exact hall 4 1 (le_refl 1) "t0" r hr rotatedOnce_chain

end Teardrop.Accounts
