/-
`teardrop/cache.py::TTLCache`, shared by the coroutines of one process or of several: `get` with its loader's read, and
changes of the table behind the loader, each a database write and then `invalidate`. Nothing fails, and the loader always
has a value (`cache_when` holds).

A coroutine runs from one await to the next; one operation is one of these steps, or the Redis key expiring, or time passing.
A waiter that finds the lock free may be overtaken, which is more than asyncio allows. The monotonic clocks differ by constants
only and are one clock here. A loaded value carries the number of changes committed when its loader read the table
(`loadedAt`), and a `get` the number of the last change that had returned when it was called (`floor`).
-/
import Teardrop.Core.Locks
import Teardrop.Core.PyStr
import Teardrop.Core.Runs

namespace Teardrop.TtlCache

/-! ## The cache -/

/-- what a cache of values `T` is made with, and the table behind its loader: contents `D`, changes `C`, and their
answers `A`; `none` is an exception -/
structure Cache (D T C A : Type) where
  /-- there is a Redis client -/
  shared : Bool
  ttl : ℤ
  load : D → T
  serialize : T → Option PyStr
  deserialize : PyStr → Option T
  apply : C → D → D
  answer : C → D → A

/-- what is loaded is written and read back -/
def Cache.Lawful {D T C A : Type} (k : Cache D T C A) : Prop :=
  ∀ d, ∃ text, k.serialize (k.load d) = some text ∧ k.deserialize text = some (k.load d)

structure Loaded (T : Type) where
  value : T
  loadedAt : ℕ

/-- `_value`, `_expires`, and the coroutine that holds `_lock` -/
structure Proc (T : Type) where
  value : Option (Loaded T)
  expires : ℤ
  lock : Option ℕ

def Proc.new {T : Type} : Proc T := ⟨none, 0, none⟩

/-- where a coroutine stands: a `get` with its floor, or a change with its number -/
inductive Task (T C A : Type) where
  | asking (floor : ℕ)
  | answered (floor : ℕ) (raw : Option (PyStr × ℕ))
  | waiting (floor : ℕ)
  | loading (floor : ℕ)
  | loaded (floor : ℕ) (v : Loaded T)
  | storing (floor : ℕ) (v : Loaded T)
  | stored (floor : ℕ) (v : Loaded T)
  | got (floor : ℕ) (v : Loaded T)
  | writing (c : C)
  | written (number : ℕ) (a : A)
  | deleting (number : ℕ) (a : A)
  | deleted (number : ℕ) (a : A)
  | changed (number : ℕ) (a : A)

/-- the table and what it held before, the last of the changes that have returned, the Redis key, the clock, the
processes, and the coroutines called so far, each in its process -/
structure St (D T C A : Type) where
  past : List D
  db : D
  finished : ℕ
  redis : Option (PyStr × ℕ)
  clock : ℕ
  procs : ℕ → Proc T
  calls : List (ℕ × Task T C A)

section Model

variable {D T C A : Type}

def start (db : D) : St D T C A := ⟨[], db, 0, none, 0, fun _ => Proc.new, []⟩

/-- the table after so many changes -/
def St.versions (s : St D T C A) : List D := s.past ++ [s.db]

/-- `_value`, unless it has expired -/
def St.held (s : St D T C A) (p : ℕ) : Option (Loaded T) :=
  (s.procs p).value.filter (fun _ => (s.clock : ℤ) < (s.procs p).expires)

def St.setProc (s : St D T C A) (p : ℕ) (x : Proc T) : St D T C A := { s with procs := Function.update s.procs p x }

/-- `invalidate`'s first two lines -/
def St.clear (s : St D T C A) (p : ℕ) : St D T C A := s.setProc p { s.procs p with value := none, expires := 0 }

/-- the in-process tier, else the lock -/
def check (s : St D T C A) (p floor : ℕ) : Task T C A :=
  match s.held p with
  | some v => .got floor v
  | none => .waiting floor

/-- what Redis has answered, deserialized -/
def decode (k : Cache D T C A) (raw : Option (PyStr × ℕ)) : Option (Loaded T) :=
  raw.bind (fun e => (k.deserialize e.1).map (fun value => ⟨value, e.2⟩))

/-- what `setex` writes; Redis refuses a time to live that is not positive -/
def setex (k : Cache D T C A) (v : Loaded T) : Option (PyStr × ℕ) :=
  if 0 < k.ttl then (k.serialize v.value).map (fun text => (text, v.loadedAt)) else none

/-- coroutine `i` of process `p` goes on to its next await -/
def advance (k : Cache D T C A) (s : St D T C A) (i p : ℕ) : Task T C A → St D T C A × Task T C A
  | .asking floor => (s, .answered floor s.redis)
  | .answered floor raw =>
    match decode k raw with
    | some v => (s, .got floor v)
    | none => (s, check s p floor)
  | .waiting floor =>
    match (s.procs p).lock, s.held p with
    | some _, _ => (s, .waiting floor)
    | none, some v => (s, .got floor v)
    | none, none => (s.setProc p { s.procs p with lock := some i }, .loading floor)
  | .loading floor => (s, .loaded floor ⟨k.load s.db, s.past.length⟩)
  | .loaded floor v =>
    if k.shared then
      (s.setProc p { s.procs p with value := some v, expires := s.clock + k.ttl }, .storing floor v)
    else
      (s.setProc p { value := some v, expires := s.clock + k.ttl, lock := none }, .got floor v)
  | .storing floor v => ({ s with redis := (setex k v).or s.redis }, .stored floor v)
  | .stored floor v => (s.setProc p { s.procs p with lock := none }, .got floor v)
  | .writing c => ({ s with past := s.past ++ [s.db], db := k.apply c s.db }, .written (s.past.length + 1) (k.answer c s.db))
  | .written number a =>
    if k.shared then (s.clear p, .deleting number a)
    else ({ s.clear p with finished := max s.finished number }, .changed number a)
  | .deleting number a => ({ s with redis := none }, .deleted number a)
  | .deleted number a => ({ s with finished := max s.finished number }, .changed number a)
  | .got floor v => (s, .got floor v)
  | .changed number a => (s, .changed number a)

inductive Op (C : Type) where
  | get (p : ℕ)
  | change (p : ℕ) (c : C)
  | next (i : ℕ)
  | expire
  | tick (d : ℕ)

def step (k : Cache D T C A) (s : St D T C A) : Op C → St D T C A
  | .get p => { s with calls := s.calls ++ [(p, if k.shared then .asking s.finished else check s p s.finished)] }
  | .change p c => { s with calls := s.calls ++ [(p, .writing c)] }
  | .next i =>
    match s.calls[i]? with
    | some (p, t) => { (advance k s i p t).1 with calls := s.calls.set i (p, (advance k s i p t).2) }
    | none => s
  | .expire => { s with redis := none }
  | .tick d => { s with clock := s.clock + d }

def run (k : Cache D T C A) : St D T C A → List (Op C) → St D T C A := Runs.run (step k)

variable (k : Cache D T C A)

@[simp] theorem run_nil (s : St D T C A) : run k s [] = s := rfl

@[simp] theorem run_cons (s : St D T C A) (o : Op C) (ops : List (Op C)) : run k s (o :: ops) = run k (step k s o) ops := rfl

end Model

/-! ## Every value is one the table had -/

section Inv

variable {D T C A : Type} {k : Cache D T C A} {s s' : St D T C A} {i p : ℕ} {t : Task T C A}

def Loaded.Real (k : Cache D T C A) (s : St D T C A) (v : Loaded T) : Prop :=
  ∃ d, s.versions[v.loadedAt]? = some d ∧ v.value = k.load d

/-- a text of Redis is that of a value the table had -/
def RealText (k : Cache D T C A) (s : St D T C A) (e : PyStr × ℕ) : Prop :=
  ∃ d, s.versions[e.2]? = some d ∧ k.serialize (k.load d) = some e.1

def Task.Right (k : Cache D T C A) (s : St D T C A) : Task T C A → Prop
  | .asking floor | .waiting floor | .loading floor => floor ≤ s.finished
  | .answered floor raw => floor ≤ s.finished ∧ ∀ e, raw = some e → RealText k s e
  | .loaded floor v | .stored floor v => floor ≤ v.loadedAt ∧ v.Real k s
  | .storing floor v => k.shared = true ∧ floor ≤ v.loadedAt ∧ v.Real k s
  | .got _ v => v.Real k s
  | .written number _ | .deleting number _ | .deleted number _ => number ≤ s.past.length
  | .writing _ | .changed _ _ => True

structure Tiers (k : Cache D T C A) (s : St D T C A) : Prop where
  finished_le : s.finished ≤ s.past.length
  only_shared : ∀ e, s.redis = some e → k.shared = true
  redis_real : ∀ e, s.redis = some e → RealText k s e
  proc_real : ∀ p v, (s.procs p).value = some v → v.Real k s

structure Inv (k : Cache D T C A) (s : St D T C A) : Prop where
  tiers : Tiers k s
  calls : ∀ (i p : ℕ) (t : Task T C A), s.calls[i]? = some (p, t) → t.Right k s

/-- what was in the table stays in its history, and no change that has returned is forgotten -/
structure Grows (s s' : St D T C A) : Prop where
  finished : s.finished ≤ s'.finished
  past : s.past.length ≤ s'.past.length
  versions : ∀ (n : ℕ) (d : D), s.versions[n]? = some d → s'.versions[n]? = some d

theorem Grows.same (hfinished : s.finished ≤ s'.finished) (hpast : s'.past = s.past) (hdb : s'.db = s.db) : Grows s s' := by
  refine ⟨hfinished, by rw [hpast], ?_⟩
  intro n d h
  rwa [St.versions, hpast, hdb]

theorem Grows.commit (db : D) : Grows s { s with past := s.past ++ [s.db], db := db } := by
  refine ⟨le_rfl, by simp, ?_⟩
  intro n d h
  show ((s.past ++ [s.db]) ++ [db])[n]? = some d
  rw [List.getElem?_append_left]
  · exact h
  · exact (List.getElem?_eq_some_iff.1 h).1

variable {e : PyStr × ℕ} {v : Loaded T}

theorem RealText.mono (hs : Grows s s') (h : RealText k s e) : RealText k s' e := by
  obtain ⟨d, hreal, htext⟩ := h
  exact ⟨d, hs.versions _ _ hreal, htext⟩

theorem Loaded.Real.mono (hs : Grows s s') (h : v.Real k s) : v.Real k s' := by
  obtain ⟨d, hreal, hvalue⟩ := h
  exact ⟨d, hs.versions _ _ hreal, hvalue⟩

theorem Task.Right.mono (hs : Grows s s') (h : t.Right k s) : t.Right k s' := by
  cases t with
  | asking _ | waiting _ | loading _ => exact le_trans h hs.finished
  | answered floor raw => exact ⟨le_trans h.1 hs.finished, fun e he => (h.2 e he).mono hs⟩
  | loaded _ _ | stored _ _ => exact ⟨h.1, h.2.mono hs⟩
  | storing floor v => exact ⟨h.1, h.2.1, h.2.2.mono hs⟩
  | got floor v => exact Loaded.Real.mono hs h
  | written _ _ | deleting _ _ | deleted _ _ => exact le_trans h hs.past
  | writing _ | changed _ _ => trivial

theorem Tiers.of (h : Tiers k s) (hs : Grows s s') (hfinished : s'.finished ≤ s'.past.length)
    (hredis : ∀ e, s'.redis = some e → s.redis = some e ∨ (k.shared = true ∧ RealText k s' e))
    (hprocs : ∀ p v, (s'.procs p).value = some v → (s.procs p).value = some v ∨ v.Real k s') : Tiers k s' := by
  constructor
  · exact hfinished
  · intro e he
    rcases hredis e he with he | ⟨hshared, -⟩
    · exact h.only_shared e he
    · exact hshared
  · intro e he
    rcases hredis e he with he | ⟨-, hreal⟩
    · exact (h.redis_real e he).mono hs
    · exact hreal
  · intro p v hv
    rcases hprocs p v hv with hv | hreal
    · exact (h.proc_real p v hv).mono hs
    · exact hreal

theorem held_some (h : s.held p = some v) : (s.procs p).value = some v ∧ (s.clock : ℤ) < (s.procs p).expires := by
  rw [St.held, Option.filter_eq_some_iff] at h
  exact ⟨h.1, by simpa using h.2⟩

theorem setProc_value (x : Proc T) {q : ℕ} (h : ((s.setProc p x).procs q).value = some v) :
    (q = p ∧ x.value = some v) ∨ (s.procs q).value = some v := by
  simp only [St.setProc, Function.update_apply] at h
  split_ifs at h with hq
  · exact .inl ⟨hq, h⟩
  · exact .inr h

theorem Tiers.held_real (h : Tiers k s) (hv : s.held p = some v) : v.Real k s :=
  h.proc_real p v (held_some hv).1

theorem check_right (h : Tiers k s) {floor : ℕ} (hfloor : floor ≤ s.finished) : (check s p floor).Right k s := by
  rw [check]
  split
  · rename_i v hv
    exact h.held_real hv
  · exact hfloor

theorem setex_real (hv : v.Real k s) (h : setex k v = some e) : RealText k s e := by
  rw [setex] at h
  split_ifs at h with httl
  obtain ⟨text, htext, rfl⟩ := Option.map_eq_some_iff.1 h
  obtain ⟨d, hreal, hvalue⟩ := hv
  rw [hvalue] at htext
  exact ⟨d, hreal, htext⟩

theorem decode_real (hk : k.Lawful) (h : RealText k s e) :
    ∃ v, decode k (some e) = some v ∧ v.Real k s ∧ v.loadedAt = e.2 := by
  obtain ⟨d, hreal, htext⟩ := h
  obtain ⟨text, hwrite, hread⟩ := hk d
  obtain rfl := Option.some.inj (hwrite.symm.trans htext)
  refine ⟨⟨k.load d, e.2⟩, ?_, ⟨d, hreal, rfl⟩, rfl⟩
  rw [decode, Option.bind_some, hread, Option.map_some]

theorem Tiers.setProc (h : Tiers k s) (x : Proc T) (hx : ∀ v, x.value = some v → v.Real k s) : Tiers k (s.setProc p x) := by
  refine h.of (Grows.same le_rfl rfl rfl) h.finished_le (fun e he => .inl he) ?_
  intro q v hv
  rcases setProc_value x hv with ⟨-, hxv⟩ | hv
  · exact .inr (hx v hxv)
  · exact .inl hv

theorem Tiers.finish (h : Tiers k s) {number : ℕ} (hnumber : number ≤ s.past.length) :
    Tiers k { s with finished := max s.finished number } :=
  h.of (Grows.same (le_max_left _ _) rfl rfl) (max_le h.finished_le hnumber) (fun _ he => .inl he) (fun _ _ hv => .inl hv)

theorem advance_right (hk : k.Lawful) (h : Tiers k s) (ht : t.Right k s) :
    Grows s (advance k s i p t).1 ∧ Tiers k (advance k s i p t).1 ∧ (advance k s i p t).2.Right k (advance k s i p t).1 := by
  have hsame : Grows s s := Grows.same le_rfl rfl rfl
  have hset : ∀ x, Grows s (s.setProc p x) := fun x => Grows.same le_rfl rfl rfl
  have hproc : ∀ v, (s.procs p).value = some v → v.Real k s := h.proc_real p
  cases t with
  | asking floor => exact ⟨hsame, h, ht, h.redis_real⟩
  | answered floor raw =>
    rw [advance]
    split
    · rename_i v hv
      cases raw with
      | none => cases hv
      | some e =>
        obtain ⟨v', hv', hreal, -⟩ := decode_real hk (ht.2 e rfl)
        obtain rfl := Option.some.inj (hv.symm.trans hv')
        exact ⟨hsame, h, hreal⟩
    · exact ⟨hsame, h, check_right h ht.1⟩
  | waiting floor =>
    rw [advance]
    split
    · exact ⟨hsame, h, ht⟩
    · rename_i v _ hv
      exact ⟨hsame, h, h.held_real hv⟩
    · exact ⟨hset _, h.setProc _ hproc, ht⟩
  | loading floor =>
    exact ⟨hsame, h, le_trans ht h.finished_le, s.db, List.getElem?_concat_length, rfl⟩
  | loaded floor v =>
    rw [advance]
    have hv : ∀ w, some v = some w → w.Real k s := by
      intro w hw
      obtain rfl := Option.some.inj hw
      exact ht.2
    split
    · rename_i hshared
      exact ⟨hset _, h.setProc _ hv, hshared, ht⟩
    · exact ⟨hset _, h.setProc _ hv, ht.2⟩
  | storing floor v =>
    have hgrows : Grows s { s with redis := (setex k v).or s.redis } := Grows.same le_rfl rfl rfl
    refine ⟨hgrows, h.of hgrows h.finished_le ?_ (fun _ _ hv => .inl hv), ht.2⟩
    intro e he
    rcases Option.or_eq_some_iff.1 he with hwritten | ⟨-, hbefore⟩
    · exact .inr ⟨ht.1, setex_real ht.2.2 hwritten⟩
    · exact .inl hbefore
  | stored floor v => exact ⟨hset _, h.setProc _ hproc, ht.2⟩
  | writing c =>
    have hgrows : Grows s { s with past := s.past ++ [s.db], db := k.apply c s.db } := Grows.commit _
    refine ⟨hgrows, h.of hgrows ?_ (fun _ he => .inl he) (fun _ _ hv => .inl hv), ?_⟩
    · exact le_trans h.finished_le hgrows.past
    · show s.past.length + 1 ≤ (s.past ++ [s.db]).length
      rw [List.length_append, List.length_singleton]
  | written number a =>
    have hcleared : Tiers k (s.clear p) := h.setProc _ (fun v hv => by cases hv)
    rw [advance]
    split
    · exact ⟨hset _, hcleared, ht⟩
    · exact ⟨Grows.same (le_max_left _ _) rfl rfl, hcleared.finish ht, trivial⟩
  | deleting number a =>
    refine ⟨Grows.same le_rfl rfl rfl, h.of (Grows.same le_rfl rfl rfl) h.finished_le ?_ (fun _ _ hv => .inl hv), ht⟩
    intro e he
    cases he
  | deleted number a => exact ⟨Grows.same (le_max_left _ _) rfl rfl, h.finish ht, trivial⟩
  | got floor v => exact ⟨hsame, h, ht⟩
  | changed number a => exact ⟨hsame, h, trivial⟩

theorem step_inv (hk : k.Lawful) (h : Inv k s) (o : Op C) : Inv k (step k s o) ∧ Grows s (step k s o) := by
  have hcall : ∀ x : ℕ × Task T C A, x.2.Right k s → Inv k { s with calls := s.calls ++ [x] } := by
    intro x hx
    refine ⟨⟨h.tiers.finished_le, h.tiers.only_shared, h.tiers.redis_real, h.tiers.proc_real⟩, ?_⟩
    intro i p t hi
    rcases Locks.getElem?_snoc_cases hi with hi | rfl
    · exact (h.calls i p t hi).mono (Grows.same le_rfl rfl rfl)
    · exact hx.mono (Grows.same le_rfl rfl rfl)
  cases o with
  | get p =>
    refine ⟨hcall _ ?_, Grows.same le_rfl rfl rfl⟩
    by_cases hshared : k.shared = true
    · rw [if_pos hshared]
      exact le_rfl
    · rw [if_neg hshared]
      exact check_right h.tiers le_rfl
  | change p c => exact ⟨hcall _ trivial, Grows.same le_rfl rfl rfl⟩
  | next i =>
    rw [step]
    split
    · rename_i p t hi
      obtain ⟨hgrows, htiers, hright⟩ := advance_right hk h.tiers (h.calls i p t hi) (i := i) (p := p)
      refine ⟨⟨⟨htiers.finished_le, htiers.only_shared, htiers.redis_real, htiers.proc_real⟩, ?_⟩,
        hgrows.finished, hgrows.past, hgrows.versions⟩
      intro j q u hj
      have hsame : Grows (advance k s i p t).1
          { (advance k s i p t).1 with calls := s.calls.set i (p, (advance k s i p t).2) } := Grows.same le_rfl rfl rfl
      rcases Locks.getElem?_set_cases hj with ⟨-, hself⟩ | ⟨-, hj⟩
      · cases hself
        exact hright.mono hsame
      · exact ((h.calls j q u hj).mono hgrows).mono hsame
    · exact ⟨h, Grows.same le_rfl rfl rfl⟩
  | expire =>
    have hgrows : Grows s { s with redis := none } := Grows.same le_rfl rfl rfl
    refine ⟨⟨h.tiers.of hgrows h.tiers.finished_le (fun e he => by cases he) (fun _ _ hv => .inl hv), ?_⟩, hgrows⟩
    exact fun i p t hi => (h.calls i p t hi).mono hgrows
  | tick d =>
    have hgrows : Grows s { s with clock := s.clock + d } := Grows.same le_rfl rfl rfl
    refine ⟨⟨h.tiers.of hgrows h.tiers.finished_le (fun e he => .inl he) (fun _ _ hv => .inl hv), ?_⟩, hgrows⟩
    exact fun i p t hi => (h.calls i p t hi).mono hgrows

theorem run_inv (hk : k.Lawful) (db : D) (ops : List (Op C)) : Inv k (run k (start db) ops) := by
  refine Runs.run_inv (step k) (Inv k) (fun s o h => (step_inv hk h o).1) ops ?_
  refine ⟨⟨le_rfl, ?_, ?_, ?_⟩, ?_⟩
  · intro e he
    cases he
  · intro e he
    cases he
  · intro p v hv
    cases hv
  · intro i p t hi
    simp [start] at hi

end Inv

/-! ## One loader at a time -/

section Lock

variable {D T C A : Type} {k : Cache D T C A} {s : St D T C A} {i p : ℕ} {t : Task T C A}

/-- inside `async with self._lock` -/
def Task.loads : Task T C A → Bool
  | .loading _ | .loaded _ _ | .storing _ _ | .stored _ _ => true
  | _ => false

/-- the lock of a process is held by the coroutine that is inside -/
def Guarded (s : St D T C A) : Prop :=
  ∀ p i, (s.procs p).lock = some i ↔ ∃ t, s.calls[i]? = some (p, t) ∧ t.loads = true

theorem check_loads (floor : ℕ) : (check s p floor).loads = false := by
  rw [check]
  split <;> rfl

theorem advance_lock (h : t.loads = true → (s.procs p).lock = some i) (q : ℕ) :
    ((advance k s i p t).1.procs q).lock = (if q = p then (if (advance k s i p t).2.loads then some i
      else if t.loads then none else (s.procs p).lock) else (s.procs q).lock) ∧
    (t.loads = false → (advance k s i p t).2.loads = true → (s.procs p).lock = none) := by
  have hset : ∀ x, ((s.setProc p x).procs q).lock = if q = p then x.lock else (s.procs q).lock := fun x => by
    simp only [St.setProc, Function.update_apply]
    split_ifs <;> rfl
  have hstay : (s.procs q).lock = if q = p then (s.procs p).lock else (s.procs q).lock := by
    split_ifs with hq
    · rw [hq]
    · rfl
  cases t with
  | asking _ | writing _ | deleting _ _ | deleted _ _ | got _ _ | changed _ _ => exact ⟨hstay, fun _ h' => by cases h'⟩
  | answered floor raw =>
    rw [advance]
    split
    · exact ⟨hstay, fun _ h' => by cases h'⟩
    · simp only [check_loads]
      exact ⟨hstay, fun _ h' => by cases h'⟩
  | waiting floor =>
    rw [advance]
    split
    · exact ⟨hstay, fun _ h' => by cases h'⟩
    · exact ⟨hstay, fun _ h' => by cases h'⟩
    · rename_i hfree _
      exact ⟨hset _, fun _ _ => hfree⟩
  | loading floor =>
    refine ⟨?_, fun h' => by cases h'⟩
    exact hstay.trans (by rw [h rfl]; rfl)
  | loaded floor v =>
    refine ⟨?_, fun h' => by cases h'⟩
    rw [advance]
    split
    · exact (hset _).trans (by rw [h rfl]; rfl)
    · exact hset _
  | storing floor v =>
    refine ⟨?_, fun h' => by cases h'⟩
    exact hstay.trans (by rw [h rfl]; rfl)
  | stored floor v => exact ⟨hset _, fun h' => by cases h'⟩
  | written number a =>
    rw [advance]
    split
    · exact ⟨hset _, fun _ h' => by cases h'⟩
    · exact ⟨hset _, fun _ h' => by cases h'⟩

theorem step_guarded (h : Guarded s) (o : Op C) : Guarded (step k s o) := by
  have hcall : ∀ x : ℕ × Task T C A, x.2.loads = false → Guarded { s with calls := s.calls ++ [x] } := by
    intro x hx p i
    rw [h p i]
    constructor
    · rintro ⟨t, hi, ht⟩
      exact ⟨t, (List.getElem?_append_left (List.getElem?_eq_some_iff.1 hi).1).trans hi, ht⟩
    · rintro ⟨t, hi, ht⟩
      rcases Locks.getElem?_snoc_cases hi with hi | rfl
      · exact ⟨t, hi, ht⟩
      · rw [hx] at ht
        cases ht
  cases o with
  | get p =>
    refine hcall _ ?_
    dsimp only
    split_ifs
    · rfl
    · exact check_loads _
  | change p c => exact hcall _ rfl
  | next i =>
    rw [step]
    split
    · rename_i p t hi
      have hown : t.loads = true → (s.procs p).lock = some i := fun ht => (h p i).2 ⟨t, hi, ht⟩
      intro q j
      obtain ⟨hlock, htaken⟩ := advance_lock (k := k) hown q
      have hi' : (s.calls.set i (p, (advance k s i p t).2))[i]? = some (p, (advance k s i p t).2) :=
        List.getElem?_set_self (List.getElem?_eq_some_iff.1 hi).1
      show ((advance k s i p t).1.procs q).lock = some j ↔ _
      rw [hlock]
      rcases eq_or_ne j i with rfl | hj
      · -- the coroutine that goes on
        have hbefore := h q j
        rw [hi] at hbefore
        rw [hi']
        rcases eq_or_ne q p with rfl | hq
        · cases hafter : (advance k s j q t).2.loads <;> cases ht : t.loads <;> simp [hafter, ht, hbefore]
        · simp [hq, Ne.symm hq, hbefore]
      · rw [List.getElem?_set_ne (Ne.symm hj), ← h q j]
        rcases eq_or_ne q p with rfl | hq
        · cases hafter : (advance k s i q t).2.loads <;> cases ht : t.loads <;>
            simp [Ne.symm hj, hown, htaken, hafter, ht]
        · rw [if_neg hq]
    · exact h
  | expire | tick d => exact h

/-- **One loader at a time.** In every state of a run the lock of a process is held by exactly the coroutine that is inside it: of
all that miss, one loads, and the lock is never left held. -/
theorem single_flight (k : Cache D T C A) (db : D) (ops : List (Op C)) : Guarded (run k (start db) ops) :=
  Runs.run_inv (step k) Guarded (fun _ o h => step_guarded h o) ops (fun p i => by simp [start, Proc.new])

end Lock

end Teardrop.TtlCache
