/-
SIWE nonces (`create_nonce` and `consume_nonce` of `teardrop/wallets.py`), any number of calls in any number of processes,
one command at a time. Each call goes to Redis when its process has a client and falls back to the table `siwe_nonces` when
the command raises, and a command may raise before it takes effect or after (`Reply.lost`). `tokens` counts what a nonce is
still good for: its key, its unused row, an insert on its way, and the times it was accepted.
-/
import Teardrop.Core.Locks
import Teardrop.Core.Runs
import Teardrop.Core.Table

namespace Teardrop.Accounts

/-! ## The two stores -/

/-- a key `teardrop:nonce:...` of Redis, until it expires -/
structure NonceKey where
  nonce : String
  value : String
  expiresAt : ℤ

/-- a row of `siwe_nonces` -/
structure NonceRow where
  nonce : String
  createdAt : ℤ
  used : Bool := false
  address : Option String := none

/-- how a Redis command goes: answered, or raised before or after its effect -/
inductive Reply where
  | ok
  | refused
  | lost
deriving DecidableEq

/-- how a statement of the database goes -/
inductive Outcome where
  | done
  | refused
  | lost

/-- `str.lower` of the process and `LOWER` of the database -/
structure Lower where
  py : String → String
  pg : String → String

/-- what one step finds outside the program -/
structure NonceEnv where
  /-- `token_hex(16)` -/
  nonce : String := ""
  now : ℤ := 0
  /-- `get_redis()`, and how the command goes -/
  redis : Option Reply := none
  pg : Outcome := .done
  siweNonceTtlSeconds : ℤ := 300

/-- the two calls, at the command they are to make next, or ended -/
inductive NonceTask where
  | set
  | insert (nonce : String)
  | getdel (nonce : String) (ttlSeconds : ℤ) (expectedAddress : Option String)
  | update (nonce : String) (ttlSeconds : ℤ) (expectedAddress : Option String)
  | created (nonce : String)
  | consumed (accepted : Bool)
  | failed
deriving DecidableEq

structure NonceWorld where
  redis : Table NonceKey.nonce := Table.empty
  rows : Table NonceRow.nonce := Table.empty
  tasks : List NonceTask := []
  /-- the nonces drawn, and those that `consume_nonce` answered True for -/
  drawn : List String := []
  accepted : List String := []

def seconds (n : ℤ) : ℤ := n * 1000000

namespace NonceWorld

/-- the value under a key that has not expired -/
def live (w : NonceWorld) (nonce : String) (now : ℤ) : Option String :=
  ((w.redis.get? nonce).filter (fun k => now < k.expiresAt)).map NonceKey.value

/-- `SET key 1 EX ttl NX` -/
def redisSet (w : NonceWorld) (nonce : String) (now ttl : ℤ) : NonceWorld :=
  if (w.live nonce now).isSome then w
  else match (w.redis.filter (fun k => k.nonce ≠ nonce)).insert? ⟨nonce, "1", now + seconds ttl⟩ with
    | none => w
    | some t => { w with redis := t }

/-- the deletion of `GETDEL` -/
def redisDel (w : NonceWorld) (nonce : String) : NonceWorld :=
  { w with redis := w.redis.filter (fun k => k.nonce ≠ nonce) }

/-- `INSERT INTO siwe_nonces` -/
def insertRow (w : NonceWorld) (nonce : String) (now : ℤ) : Option NonceWorld :=
  (w.rows.insert? { nonce := nonce, createdAt := now }).map (fun t => { w with rows := t })

end NonceWorld

/-- the WHERE of the UPDATE, on the row of the nonce -/
def NonceRow.isFresh (lower : Lower) (now ttl : ℤ) (expected : Option String) (r : NonceRow) : Bool :=
  !r.used && decide (now - seconds ttl < r.createdAt) && (match r.address, expected with
      | none, _ => true
      | some _, none => true
      | some a, some e => lower.pg a = lower.pg e)

namespace NonceWorld

/-- `UPDATE siwe_nonces SET used = TRUE WHERE ...` -/
def useRow (lower : Lower) (w : NonceWorld) (nonce : String) (now ttl : ℤ) (expected : Option String) : NonceWorld :=
  { w with
    rows := w.rows.update
      (fun r => if r.nonce = nonce ∧ r.isFresh lower now ttl expected then { r with used := true } else r)
      (fun _ => by split <;> rfl) }

/-- what the UPDATE returns -/
def usable (lower : Lower) (w : NonceWorld) (nonce : String) (now ttl : ℤ) (expected : Option String) : Bool :=
  (w.rows.get? nonce).any (fun r => r.isFresh lower now ttl expected)

end NonceWorld

/-- the check of the bound address: `"1"` is an unbound key -/
def boundElsewhere (lower : Lower) (expected : Option String) (value : String) : Bool :=
  match (expected.filter (· ≠ "")).map lower.py with
  | none => false
  | some norm => norm ≠ "" ∧ value ≠ "1" ∧ lower.py value ≠ norm

/-- the answer of the Redis path -/
def redisAnswer (lower : Lower) (expected : Option String) : Option String → Bool
  | none => false
  | some value => !boundElsewhere lower expected value

/-! ## Steps -/

/-- an answer of `consume_nonce` -/
def NonceWorld.answer (w : NonceWorld) (nonce : String) (b : Bool) : NonceWorld × NonceTask :=
  (if b then { w with accepted := w.accepted ++ [nonce] } else w, .consumed b)

@[grind] def NonceTask.step (lower : Lower) (e : NonceEnv) (w : NonceWorld) : NonceTask → NonceWorld × NonceTask
  | .set =>
    let w := { w with drawn := w.drawn ++ [e.nonce] }
    match e.redis with
    | some .ok => (w.redisSet e.nonce e.now e.siweNonceTtlSeconds, .created e.nonce)
    | some .lost => (w.redisSet e.nonce e.now e.siweNonceTtlSeconds, .insert e.nonce)
    | some .refused | none => (w, .insert e.nonce)
  | .insert nonce =>
    match w.insertRow nonce e.now, e.pg with
    | none, _ | _, .refused => (w, .failed)
    | some w', .lost => (w', .failed)
    | some w', .done => (w', .created nonce)
  | .getdel nonce ttl expected =>
    match e.redis with
    | some .ok => (w.redisDel nonce).answer nonce (redisAnswer lower expected (w.live nonce e.now))
    | some .lost => (w.redisDel nonce, .update nonce ttl expected)
    | some .refused | none => (w, .update nonce ttl expected)
  | .update nonce ttl expected =>
    match e.pg with
    | .refused => (w, .failed)
    | .lost => (w.useRow lower nonce e.now ttl expected, .failed)
    | .done => (w.useRow lower nonce e.now ttl expected).answer nonce (w.usable lower nonce e.now ttl expected)
  | t => (w, t)

inductive NonceAct where
  | createNonce
  | consumeNonce (nonce : String) (ttlSeconds : ℤ) (expectedAddress : Option String)
  | advance (i : ℕ) (e : NonceEnv)
  | crash (i : ℕ)

def nonceStep (lower : Lower) (w : NonceWorld) : NonceAct → NonceWorld
  | .createNonce => { w with tasks := w.tasks ++ [.set] }
  | .consumeNonce nonce ttl expected => { w with tasks := w.tasks ++ [.getdel nonce ttl expected] }
  | .advance i e =>
    match w.tasks[i]? with
    | none => w
    | some t => { (t.step lower e w).1 with tasks := w.tasks.set i (t.step lower e w).2 }
  | .crash i => { w with tasks := w.tasks.set i .failed }

def nonceRun (lower : Lower) (w : NonceWorld) (acts : List NonceAct) : NonceWorld := Runs.run (nonceStep lower) w acts

/-! ## What a nonce is still good for -/

def NonceWorld.keyed (w : NonceWorld) (n : String) : ℕ := if (w.redis.get? n).isSome then 1 else 0

def NonceWorld.unused (w : NonceWorld) (n : String) : ℕ := if (w.rows.get? n).any (fun r => !r.used) then 1 else 0

/-- in the stores, or accepted -/
def NonceWorld.stock (w : NonceWorld) (n : String) : ℕ := w.keyed n + w.unused n + w.accepted.count n

/-- an insert that is on its way -/
def NonceTask.pending (n : String) (t : NonceTask) : ℕ := if t = .insert n then 1 else 0

def NonceWorld.tokens (w : NonceWorld) (n : String) : ℕ := w.stock n + w.tasks.count (.insert n)

namespace NonceWorld

variable (w : NonceWorld) (m n : String)

theorem keyed_redisDel : (w.redisDel m).keyed n = if m = n then 0 else w.keyed n := by
  unfold keyed redisDel
  simp only [Table.get?_filter]
  match hn : w.redis.get? n with
  | none => simp
  | some k =>
    have hkey : k.nonce = n := Table.key_of_get? hn
    by_cases h : m = n
    · simp [hkey, h]
    · have h' : ¬ n = m := fun heq => h heq.symm
      simp [hkey, h, h']

theorem keyed_redisSet (now ttl : ℤ) : (w.redisSet m now ttl).keyed n ≤ w.keyed n + if m = n then 1 else 0 := by
  unfold redisSet
  by_cases hlive : (w.live m now).isSome = true
  · rw [if_pos hlive]
    exact Nat.le_add_right _ _
  · rw [if_neg hlive]
    split
    · exact Nat.le_add_right _ _
    · rename_i t ht
      by_cases hn : m = n
      · rw [if_pos hn]
        unfold keyed
        split_ifs <;> omega
      · rw [if_neg hn]
        have hget : t.get? n = (w.redisDel m).redis.get? n := (Table.get?_insert ht n).trans (if_neg hn)
        have hdel : (w.redisDel m).keyed n = w.keyed n := by rw [keyed_redisDel, if_neg hn]
        unfold keyed at hdel ⊢
        rw [hget, hdel]
        exact le_refl _

theorem keyed_of_live {w : NonceWorld} {n value : String} {now : ℤ} (h : w.live n now = some value) : w.keyed n = 1 := by
  obtain ⟨k, hk, -⟩ := Option.map_eq_some_iff.1 h
  unfold keyed
  rw [(Option.filter_eq_some_iff.1 hk).1]
  rfl

theorem unused_insertRow {w w' : NonceWorld} {m : String} {now : ℤ} (h : w.insertRow m now = some w') (n : String) :
    w'.unused n ≤ w.unused n + (if m = n then 1 else 0) ∧ w'.redis = w.redis ∧ w'.accepted = w.accepted := by
  obtain ⟨t, ht, rfl⟩ := Option.map_eq_some_iff.1 h
  refine ⟨?_, rfl, rfl⟩
  by_cases hn : m = n
  · unfold unused
    split_ifs <;> omega
  · rw [if_neg hn]
    have hget : t.get? n = w.rows.get? n := (Table.get?_insert ht n).trans (if_neg hn)
    unfold unused
    rw [hget]
    exact le_refl _

theorem unused_useRow (lower : Lower) (w : NonceWorld) (m n : String) (now ttl : ℤ) (expected : Option String) :
    (w.useRow lower m now ttl expected).unused n + (if m = n ∧ w.usable lower m now ttl expected = true then 1 else 0) ≤
      w.unused n := by
  have hget := Table.get?_update w.rows
    (fun r => if r.nonce = m ∧ r.isFresh lower now ttl expected then { r with used := true } else r)
    (fun _ => by split <;> rfl) n
  unfold unused useRow
  rw [hget]
  match hn : w.rows.get? n with
  | none =>
    have hnone : ¬ (m = n ∧ w.usable lower m now ttl expected = true) := by
      rintro ⟨rfl, h⟩
      unfold usable at h
      rw [hn] at h
      cases h
    simp [hnone]
  | some r =>
    have hkey : r.nonce = n := Table.key_of_get? hn
    by_cases hhit : r.nonce = m ∧ r.isFresh lower now ttl expected = true
    · have hunused : r.used = false := by
        have h := hhit.2
        unfold NonceRow.isFresh at h
        rcases hu : r.used with _ | _
        · rfl
        · rw [hu] at h
          simp at h
      obtain ⟨hm, hfresh⟩ := hhit
      have hmn : m = n := hm.symm.trans hkey
      subst hmn
      simp [hkey, hfresh, hunused, usable, hn]
    · have hnone : ¬ (m = n ∧ w.usable lower m now ttl expected = true) := by
        rintro ⟨rfl, h⟩
        unfold usable at h
        rw [hn, Option.any_some] at h
        exact hhit ⟨hkey, h⟩
      rw [if_neg hnone, Option.map_some, if_neg hhit]
      exact le_refl _

theorem stock_answer (b : Bool) : (w.answer m b).1.stock n = w.stock n + if m = n ∧ b = true then 1 else 0 := by
  match b with
  | false => simp [answer]
  | true =>
    have hcount : (w.accepted ++ [m]).count n = w.accepted.count n + if m = n then 1 else 0 := by
      rw [List.count_append, List.count_singleton]
      simp
    simp only [answer, if_true, and_true, stock, hcount]
    unfold keyed unused
    dsimp only
    omega

end NonceWorld

/-! ## Steps and runs -/

/-- what a step leaves of a nonce: in the stores, accepted, or in the task's next insert -/
def worth (r : NonceWorld × NonceTask) (n : String) : ℕ := r.1.stock n + r.2.pending n

theorem worth_answer (w : NonceWorld) (m n : String) (b : Bool) :
    worth (w.answer m b) n = w.stock n + if m = n ∧ b = true then 1 else 0 := by
  unfold worth
  rw [NonceWorld.stock_answer]
  rfl

/-- the step draws a nonce -/
def NonceTask.draws (t : NonceTask) (e : NonceEnv) (n : String) : ℕ := if t = .set ∧ e.nonce = n then 1 else 0

variable (lower : Lower) (e : NonceEnv)

theorem set_tokens (w : NonceWorld) (n : String) (hlost : e.redis ≠ some .lost) :
    worth (NonceTask.step lower e w .set) n ≤ w.stock n + if e.nonce = n then 1 else 0 := by
  have hkeyed := NonceWorld.keyed_redisSet { w with drawn := w.drawn ++ [e.nonce] } e.nonce n e.now e.siweNonceTtlSeconds
  have hrest : ∀ v : NonceWorld, (v.redisSet e.nonce e.now e.siweNonceTtlSeconds).rows = v.rows ∧
      (v.redisSet e.nonce e.now e.siweNonceTtlSeconds).accepted = v.accepted := by
    intro v
    unfold NonceWorld.redisSet
    split_ifs
    · exact ⟨rfl, rfl⟩
    · split <;> exact ⟨rfl, rfl⟩
  simp only [NonceTask.step]
  split
  · obtain ⟨hrows, haccepted⟩ := hrest { w with drawn := w.drawn ++ [e.nonce] }
    unfold worth NonceWorld.stock NonceWorld.unused
    rw [hrows, haccepted]
    simp only [NonceTask.pending, reduceCtorEq, if_false, Nat.add_zero]
    have hsame : NonceWorld.keyed { w with drawn := w.drawn ++ [e.nonce] } n = w.keyed n := rfl
    omega
  · rename_i hr
    exact absurd hr hlost
  · simp only [worth, NonceTask.pending, NonceTask.insert.injEq]
    exact le_refl _
  · simp only [worth, NonceTask.pending, NonceTask.insert.injEq]
    exact le_refl _

theorem insert_tokens (w : NonceWorld) (m n : String) :
    worth (NonceTask.step lower e w (.insert m)) n ≤ w.stock n + if m = n then 1 else 0 := by
  have hinsert : ∀ v, w.insertRow m e.now = some v → v.stock n ≤ w.stock n + (if m = n then 1 else 0) := by
    intro v hv
    obtain ⟨hunused, hredis, haccepted⟩ := NonceWorld.unused_insertRow hv n
    unfold NonceWorld.stock NonceWorld.keyed
    rw [hredis, haccepted]
    omega
  simp only [NonceTask.step]
  split
  · exact Nat.le_add_right _ _
  · exact Nat.le_add_right _ _
  · rename_i w' hw' _
    exact hinsert w' hw'
  · rename_i w' hw' _
    exact hinsert w' hw'

theorem getdel_tokens (w : NonceWorld) (m n : String) (ttl : ℤ) (expected : Option String) :
    worth (NonceTask.step lower e w (.getdel m ttl expected)) n ≤ w.stock n := by
  have hdel : (w.redisDel m).stock n + (if m = n then w.keyed n else 0) ≤ w.stock n := by
    have hkeyed := NonceWorld.keyed_redisDel w m n
    have hrest : (w.redisDel m).unused n = w.unused n ∧ (w.redisDel m).accepted = w.accepted := ⟨rfl, rfl⟩
    unfold NonceWorld.stock
    rw [hkeyed, hrest.1, hrest.2]
    split_ifs <;> omega
  simp only [NonceTask.step]
  split
  · rw [worth_answer]
    by_cases haccept : m = n ∧ redisAnswer lower expected (w.live m e.now) = true
    · rw [if_pos haccept]
      obtain ⟨rfl, hanswer⟩ := haccept
      have hlive : w.keyed m = 1 := by
        match hl : w.live m e.now with
        | none =>
          rw [hl] at hanswer
          cases hanswer
        | some value => exact NonceWorld.keyed_of_live hl
      rw [if_pos rfl, hlive] at hdel
      exact hdel
    · rw [if_neg haccept]
      omega
  · exact le_trans (Nat.le_add_right _ _) hdel
  · exact le_refl _
  · exact le_refl _

theorem update_tokens (w : NonceWorld) (m n : String) (ttl : ℤ) (expected : Option String) :
    worth (NonceTask.step lower e w (.update m ttl expected)) n ≤ w.stock n := by
  have huse : (w.useRow lower m e.now ttl expected).stock n +
      (if m = n ∧ w.usable lower m e.now ttl expected = true then 1 else 0) ≤ w.stock n := by
    have hunused := NonceWorld.unused_useRow lower w m n e.now ttl expected
    have hrest : (w.useRow lower m e.now ttl expected).keyed n = w.keyed n ∧
      (w.useRow lower m e.now ttl expected).accepted = w.accepted := ⟨rfl, rfl⟩
    unfold NonceWorld.stock
    rw [hrest.1, hrest.2]
    omega
  simp only [NonceTask.step]
  split
  · exact le_refl _
  · exact le_trans (Nat.le_add_right _ _) huse
  · rw [worth_answer]
    exact huse

/-- **One command.** It spends what it gives, the draw of a nonce apart; a SET that takes effect and raises would give
twice. -/
theorem NonceTask.step_tokens (w : NonceWorld) (t : NonceTask) (n : String) (hset : t = .set → e.redis ≠ some .lost) :
    worth (t.step lower e w) n ≤ w.stock n + t.pending n + t.draws e n := by
  match t with
  | .set =>
    refine le_trans (set_tokens lower e w n (hset rfl)) ?_
    simp [NonceTask.draws]
  | .insert m =>
    refine le_trans (insert_tokens lower e w m n) ?_
    simp [NonceTask.pending]
  | .getdel m ttl expected =>
    refine le_trans (getdel_tokens lower e w m n ttl expected) ?_
    simp [NonceTask.draws]
  | .update m ttl expected =>
    refine le_trans (update_tokens lower e w m n ttl expected) ?_
    simp [NonceTask.draws]
  | .created m => exact Nat.le_add_right _ _
  | .consumed b => exact Nat.le_add_right _ _
  | .failed => exact Nat.le_add_right _ _

theorem count_set_add {l : List NonceTask} {i : ℕ} {c : NonceTask} (h : l[i]? = some c) (a b : NonceTask) :
    (l.set i a).count b + (if c = b then 1 else 0) = l.count b + if a = b then 1 else 0 := by
  have hcount := Locks.countP_set_add h (· == b) a
  simp only [beq_iff_eq] at hcount
  exact hcount

/-- the draw of a nonce, if the step is one -/
def NonceAct.draw? (w : NonceWorld) : NonceAct → Option NonceEnv
  | .advance i e => if w.tasks[i]? = some .set then some e else none
  | _ => none

/-- a nonce that was not drawn before -/
def drawsFresh (w : NonceWorld) (a : NonceAct) : Bool := (a.draw? w).all (fun e => e.nonce ∉ w.drawn)

/-- the SET of `create_nonce` takes effect and raises -/
def losesSet (w : NonceWorld) (a : NonceAct) : Bool := (a.draw? w).any (fun e => e.redis = some .lost)

/-- every nonce has one use left or behind it, and one that was not drawn has none -/
structure OneUse (w : NonceWorld) : Prop where
  once : ∀ n, w.tokens n ≤ 1
  drawn : ∀ n, n ∉ w.drawn → w.tokens n = 0

theorem NonceTask.step_drawn (w : NonceWorld) (t : NonceTask) :
    (t.step lower e w).1.drawn = if t = .set then w.drawn ++ [e.nonce] else w.drawn := by
  have hset : ∀ v : NonceWorld, (v.redisSet e.nonce e.now e.siweNonceTtlSeconds).drawn = v.drawn := by
    intro v
    unfold NonceWorld.redisSet
    split_ifs
    · rfl
    · split <;> rfl
  have hanswer : ∀ (v : NonceWorld) m b, (v.answer m b).1.drawn = v.drawn := by
    intro v m b
    unfold NonceWorld.answer
    split_ifs <;> rfl
  have hrow : ∀ m v, w.insertRow m e.now = some v → v.drawn = w.drawn := by
    intro m v hv
    obtain ⟨t, -, rfl⟩ := Option.map_eq_some_iff.1 hv
    rfl
  match t with
  | .set =>
    simp only [NonceTask.step, if_true]
    split
    · exact hset _
    · exact hset _
    · rfl
    · rfl
  | .insert m =>
    simp only [NonceTask.step, reduceCtorEq, if_false]
    split
    · rfl
    · rfl
    · rename_i hw' _
      exact hrow m _ hw'
    · rename_i hw' _
      exact hrow m _ hw'
  | .getdel m ttl expected =>
    simp only [NonceTask.step, reduceCtorEq, if_false]
    split
    · exact hanswer _ _ _
    · rfl
    · rfl
    · rfl
  | .update m ttl expected =>
    simp only [NonceTask.step, reduceCtorEq, if_false]
    split
    · rfl
    · rfl
    · exact hanswer _ _ _
  | .created m => rfl
  | .consumed b => rfl
  | .failed => rfl

theorem advance_tokens {w : NonceWorld} {i : ℕ} {t : NonceTask} (hi : w.tasks[i]? = some t)
    (hset : t = .set → e.redis ≠ some .lost) (n : String) :
    NonceWorld.tokens { (t.step lower e w).1 with tasks := w.tasks.set i (t.step lower e w).2 } n ≤
      w.tokens n + t.draws e n := by
  have hworth := t.step_tokens lower e w n hset
  have hcount := count_set_add hi (t.step lower e w).2 (.insert n)
  have hstock : NonceWorld.stock { (t.step lower e w).1 with tasks := w.tasks.set i (t.step lower e w).2 } n =
    (t.step lower e w).1.stock n := rfl
  unfold worth NonceTask.pending at hworth
  unfold NonceWorld.tokens
  rw [hstock]
  dsimp only
  omega

theorem nonceStep_oneUse {w : NonceWorld} (h : OneUse w) (a : NonceAct) (hfresh : drawsFresh w a = true)
    (hlost : losesSet w a = false) : OneUse (nonceStep lower w a) := by
  match a with
  | .createNonce =>
    have hsame : ∀ n, (nonceStep lower w .createNonce).tokens n = w.tokens n := by
      intro n
      simp only [nonceStep, NonceWorld.tokens, List.count_append, List.count_singleton]
      rfl
    exact ⟨fun n => (hsame n).le.trans (h.once n), fun n hn => (hsame n).trans (h.drawn n hn)⟩
  | .consumeNonce nonce ttl expected =>
    have hsame : ∀ n, (nonceStep lower w (.consumeNonce nonce ttl expected)).tokens n = w.tokens n := by
      intro n
      simp only [nonceStep, NonceWorld.tokens, List.count_append, List.count_singleton]
      rfl
    exact ⟨fun n => (hsame n).le.trans (h.once n), fun n hn => (hsame n).trans (h.drawn n hn)⟩
  | .crash i =>
    have hle : ∀ n, (nonceStep lower w (.crash i)).tokens n ≤ w.tokens n := by
      intro n
      have hstock : (nonceStep lower w (.crash i)).stock n = w.stock n := rfl
      unfold NonceWorld.tokens
      rw [hstock]
      match hi : w.tasks[i]? with
      | none =>
        rw [show (nonceStep lower w (.crash i)).tasks = w.tasks from List.set_eq_of_length_le (List.getElem?_eq_none_iff.1 hi)]
      | some t =>
        have hcount := count_set_add hi .failed (.insert n)
        simp only [reduceCtorEq, if_false] at hcount
        simp only [nonceStep]
        omega
    exact ⟨fun n => (hle n).trans (h.once n), fun n hn => Nat.le_zero.1 ((h.drawn n hn) ▸ hle n)⟩
  | .advance i e =>
    match hi : w.tasks[i]? with
    | none =>
      simp only [nonceStep, hi]
      exact h
    | some t =>
      have hset : t = .set → e.nonce ∉ w.drawn ∧ e.redis ≠ some .lost := by
        rintro rfl
        simp only [drawsFresh, losesSet, NonceAct.draw?, hi, if_true, Option.all_some, Option.any_some, decide_eq_true_eq,
          decide_eq_false_iff_not] at hfresh hlost
        exact ⟨hfresh, hlost⟩
      have hle := advance_tokens lower e hi (fun ht => (hset ht).2)
      have hdrawn := t.step_drawn lower e w
      simp only [nonceStep, hi]
      constructor
      · intro n
        refine (hle n).trans ?_
        by_cases hd : t = .set ∧ e.nonce = n
        · have hzero := h.drawn n (hd.2 ▸ (hset hd.1).1)
          simp only [NonceTask.draws, hd, and_self, if_true, hzero]
          exact le_refl _
        · simp only [NonceTask.draws, if_neg hd]
          exact h.once n
      · intro n hn
        rw [hdrawn] at hn
        have hnot : ¬ (t = .set ∧ e.nonce = n) := by
          rintro ⟨rfl, rfl⟩
          exact hn (by simp)
        have hold : n ∉ w.drawn := by
          intro hmem
          apply hn
          split_ifs
          · exact List.mem_append_left _ hmem
          · exact hmem
        have hbound := hle n
        rw [NonceTask.draws, if_neg hnot, h.drawn n hold] at hbound
        exact Nat.le_zero.1 hbound

/-- **Nonces are single use.** Take any run of `create_nonce` and `consume_nonce` in any number of processes, one command
at a time, with Redis present or not and with commands that raise before or after their effect. If the nonces drawn are
distinct and no SET of `create_nonce` raises after its effect, each nonce is accepted at most once. -/
theorem nonces_single_use (lower : Lower) (acts : List NonceAct)
    (h : Runs.Legal (nonceStep lower) (fun w a => drawsFresh w a = true ∧ losesSet w a = false) {} acts) (n : String) :
    (nonceRun lower {} acts).accepted.count n ≤ 1 := by
  have hstart : OneUse {} := ⟨fun _ => Nat.zero_le _, fun _ _ => rfl⟩
  have huse := Runs.legal_inv (nonceStep lower) _ OneUse (fun _ a hw hok => nonceStep_oneUse lower hw a hok.1 hok.2) acts
    hstart h
  have hle := huse.once n
  unfold NonceWorld.tokens NonceWorld.stock at hle
  unfold nonceRun
  omega

def noCase : Lower := ⟨id, id⟩

/-- a nonce in Redis, consumed once, and asked for again when Redis is gone -/
def consumedThenFallback (set : Reply) : List NonceAct :=
  [.createNonce, .advance 0 { nonce := "n", redis := some set }, .advance 0 {},
    .consumeNonce "n" 300 none, .advance 1 { redis := some .ok },
    .consumeNonce "n" 300 none, .advance 2 {}, .advance 2 {}]

theorem nonces_single_use_fallback :
    (nonceRun noCase {} (consumedThenFallback .ok)).accepted = ["n"] ∧
      (nonceRun noCase {} (consumedThenFallback .ok)).accepted.count "n" ≤ 1 :=
  ⟨by decide, nonces_single_use noCase _ (by decide) "n"⟩

/-- **A SET that raises after its effect.** `create_nonce` stores the nonce in the table too, and `consume_nonce` accepts it
from Redis and then from the table. -/
theorem lost_set_accepted_twice :
    Runs.Legal (nonceStep noCase) (fun w a => drawsFresh w a = true) {} (consumedThenFallback .lost) ∧
      (nonceRun noCase {} (consumedThenFallback .lost)).accepted.count "n" = 2 :=
  ⟨by decide, by decide⟩

end Teardrop.Accounts
