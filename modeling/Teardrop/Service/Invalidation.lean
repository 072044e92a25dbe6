/-
Whether `TTLCache.invalidate` is effective: whether a `get` called after a change has returned yields a value loaded after
the change.

A step is `Timely` when no load stores what it read before a change that has returned since, and no change returns while a
tier of any process, or Redis, still has a value from before it. That is exactly what keeps both tiers free of such values,
and from a tier that is not free of them a `get` called at once returns one.
-/
import Teardrop.Service.TtlCache

namespace Teardrop.TtlCache

open Option

/-! ## Fresh values and timely steps -/

section Claimed

variable {D T C A : Type}

/-- every `get` that has returned, returned what the table held at or after the last change that had returned when it
was called -/
def Fresh (k : Cache D T C A) (s : St D T C A) : Prop :=
  ∀ (i p floor : ℕ) (v : Loaded T), s.calls[i]? = some (p, .got floor v) →
    floor ≤ v.loadedAt ∧ ∃ d, s.versions[v.loadedAt]? = some d ∧ v.value = k.load d

/-- the floor of a `get` that has returned, and when its value was loaded -/
def Task.returned : Task T C A → Option (ℕ × ℕ)
  | .got floor v => some (floor, v.loadedAt)
  | _ => none

theorem not_fresh {k : Cache D T C A} {s : St D T C A} {i floor loadedAt : ℕ}
    (hi : s.calls[i]?.bind (fun call => call.2.returned) = some (floor, loadedAt)) (hlt : loadedAt < floor) : ¬ Fresh k s := by
  intro hfresh
  obtain ⟨⟨p, t⟩, hcall, ht⟩ := bind_eq_some_iff.1 hi
  cases t with
  | got floor' v =>
    obtain ⟨rfl, rfl⟩ := Prod.mk.inj (some.inj ht)
    exact absurd (hfresh i p _ v hcall).1 (not_le.2 hlt)
  | _ => cases ht

/-- no tier holds what was loaded before change `n` -/
def Clean (s : St D T C A) (n : ℕ) : Prop :=
  (∀ e, s.redis = some e → n ≤ e.2) ∧ ∀ p v, s.held p = some v → n ≤ v.loadedAt

/-- a load stores what was read after every change that has returned, and a change returns when nothing loaded before it
is left in either tier -/
def Timely (k : Cache D T C A) (s : St D T C A) : Op C → Prop
  | .next i =>
    match s.calls[i]? with
    | some (_, .loaded _ v) | some (_, .storing _ v) => 0 < k.ttl → s.finished ≤ v.loadedAt
    | some (p, .written number _) => k.shared = false → Clean (s.clear p) number
    | some (_, .deleted number _) => Clean s number
    | _ => True
  | _ => True

end Claimed

/-! ## The tiers -/

section Current

variable {D T C A : Type} {k : Cache D T C A} {s s' : St D T C A} {i p n : ℕ} {t : Task T C A}

theorem Clean.of (h : Clean s n) (hredis : ∀ e, s'.redis = some e → s.redis = some e)
    (hheld : ∀ p v, s'.held p = some v → s.held p = some v) : Clean s' n :=
  ⟨fun e he => h.1 e (hredis e he), fun p v hv => h.2 p v (hheld p v hv)⟩

theorem clean_max {m : ℕ} : Clean s (max m n) ↔ Clean s m ∧ Clean s n := by
  simp only [Clean, max_le_iff]
  constructor
  · intro h
    exact ⟨⟨fun e he => (h.1 e he).1, fun p v hv => (h.2 p v hv).1⟩, fun e he => (h.1 e he).2, fun p v hv => (h.2 p v hv).2⟩
  · intro h
    exact ⟨fun e he => ⟨h.1.1 e he, h.2.1 e he⟩, fun p v hv => ⟨h.1.2 p v hv, h.2.2 p v hv⟩⟩

theorem held_setProc (x : Proc T) (q : ℕ) :
    (s.setProc p x).held q = if q = p then x.value.filter (fun _ => (s.clock : ℤ) < x.expires) else s.held q := by
  simp only [St.held, St.setProc, Function.update_apply]
  split_ifs <;> rfl

theorem held_lock (lock : Option ℕ) (q : ℕ) : (s.setProc p { s.procs p with lock := lock }).held q = s.held q := by
  rw [held_setProc]
  split_ifs with hq
  · rw [hq]
    rfl
  · rfl

variable {v : Loaded T}

theorem held_clear {q : ℕ} (h : (s.clear p).held q = some v) : s.held q = some v := by
  rw [St.clear, held_setProc] at h
  split_ifs at h with hq
  · cases h
  · exact h

theorem Clean.clear (h : Clean s n) (p : ℕ) : Clean (s.clear p) n := h.of (fun _ he => he) (fun _ _ => held_clear)

theorem clean_store (h : Clean s n) {ttl : ℤ} (v : Loaded T) (lock : Option ℕ) :
    Clean (s.setProc p { value := some v, expires := s.clock + ttl, lock := lock }) n ↔ 0 < ttl → n ≤ v.loadedAt := by
  have hheld : (s.setProc p { value := some v, expires := s.clock + ttl, lock := lock }).held p =
      if 0 < ttl then some v else none := by
    rw [held_setProc, if_pos rfl]
    simp [filter_some]
  constructor
  · intro hclean httl
    rw [if_pos httl] at hheld
    exact hclean.2 p v hheld
  · intro hv
    refine ⟨h.1, ?_⟩
    intro q w hw
    by_cases hq : q = p
    · rw [hq, hheld] at hw
      split_ifs at hw with httl
      obtain rfl := some.inj hw
      exact hv httl
    · rw [held_setProc, if_neg hq] at hw
      exact h.2 q w hw

theorem clean_setex (hk : k.Lawful) (h : Clean s n) (hv : v.Real k s) :
    Clean { s with redis := (setex k v).or s.redis } n ↔ 0 < k.ttl → n ≤ v.loadedAt := by
  obtain ⟨d, -, hvalue⟩ := hv
  obtain ⟨text, htext, -⟩ := hk d
  have hwritten : setex k v = if 0 < k.ttl then some (text, v.loadedAt) else none := by
    rw [setex, hvalue, htext, map_some]
  constructor
  · intro hclean httl
    rw [if_pos httl] at hwritten
    exact hclean.1 (text, v.loadedAt) (by rw [hwritten, some_or])
  · intro hat
    refine ⟨?_, h.2⟩
    intro e he
    rcases or_eq_some_iff.1 he with he | ⟨-, he⟩
    · rw [hwritten] at he
      split_ifs at he with httl
      obtain rfl := some.inj he
      exact hat httl
    · exact h.1 e he

theorem advance_clean (hk : k.Lawful) (h : Clean s s.finished) (hright : t.Right k s) (hi : s.calls[i]? = some (p, t)) :
    Clean (advance k s i p t).1 (advance k s i p t).1.finished ↔ Timely k s (.next i) := by
  have hlock : ∀ lock, Clean (s.setProc p { s.procs p with lock := lock }) s.finished :=
    fun lock => h.of (fun _ he => he) (fun q v hv => by rwa [held_lock] at hv)
  rw [Timely, hi]
  cases t with
  | asking _ | loading _ | got _ _ | writing _ | changed _ _ => exact iff_of_true h trivial
  | answered floor raw =>
    rw [advance]
    split <;> exact iff_of_true h trivial
  | waiting floor =>
    rw [advance]
    split
    · exact iff_of_true h trivial
    · exact iff_of_true h trivial
    · exact iff_of_true (hlock _) trivial
  | loaded floor v =>
    rw [advance]
    split <;> exact clean_store h v _
  | storing floor v => exact clean_setex hk h hright.2.2
  | stored floor v => exact iff_of_true (hlock _) trivial
  | written number a =>
    rw [advance]
    by_cases hshared : k.shared = true
    · rw [if_pos hshared]
      exact iff_of_true (h.clear p) (fun hfalse => by rw [hshared] at hfalse; cases hfalse)
    · rw [if_neg hshared]
      have hboth : Clean (s.clear p) (max s.finished number) ↔ Clean (s.clear p) number := by
        rw [clean_max]
        exact and_iff_right (h.clear p)
      refine hboth.trans ⟨fun hclean _ => hclean, fun htimely => htimely (by simpa using hshared)⟩
  | deleting number a =>
    exact iff_of_true (h.of (fun e he => by cases he) (fun _ _ hv => hv)) trivial
  | deleted number a => exact clean_max.trans (and_iff_right h)

theorem step_clean (hk : k.Lawful) (hinv : Inv k s) (h : Clean s s.finished) (o : Op C) :
    Clean (step k s o) (step k s o).finished ↔ Timely k s o := by
  cases o with
  | get _ | change _ _ => exact iff_of_true h trivial
  | next i =>
    rw [step]
    split
    · rename_i p t hi
      exact advance_clean hk h (hinv.calls i p t hi) hi
    · rename_i hi
      refine iff_of_true h ?_
      rw [Timely, hi]
      trivial
  | expire => exact iff_of_true (h.of (fun e he => by cases he) (fun _ _ hv => hv)) trivial
  | tick d =>
    refine iff_of_true (h.of (fun _ he => he) ?_) trivial
    intro p v hv
    obtain ⟨hvalue, hlt⟩ := held_some hv
    have hbefore : (s.clock : ℤ) < (s.procs p).expires := lt_of_le_of_lt (Int.ofNat_le.2 (Nat.le_add_right _ _)) hlt
    rw [St.held, filter_eq_some_iff]
    exact ⟨hvalue, decide_eq_true hbefore⟩

/-- **The tiers are clean exactly while every step is timely.** -/
theorem current_iff (hk : k.Lawful) (db : D) (ops : List (Op C)) :
    (∀ m, Clean (run k (start db) (ops.take m)) (run k (start db) (ops.take m)).finished) ↔
      Runs.Legal (step k) (Timely k) (start db) ops := by
  refine Runs.legal_iff_under (step k) (Inv k) (fun s => Clean s s.finished) (fun _ _ => True) (Timely k)
    (fun s o h _ => (step_inv hk h o).1) (fun s o hinv _ h => step_clean hk hinv h o) ops (run_inv hk db []) ?_ ?_
  · exact ⟨fun _ _ => Nat.zero_le _, fun _ _ _ => Nat.zero_le _⟩
  · exact Runs.legal_of_forall (step k) (fun _ _ => trivial) _ _

/-! ## What a `get` returns -/

/-- a `get` with an answer of Redis, or its value, has it from after its floor -/
def Task.Ahead : Task T C A → Prop
  | .answered floor raw => ∀ e, raw = some e → floor ≤ e.2
  | .got floor v => floor ≤ v.loadedAt
  | _ => True

theorem check_ahead (h : Clean s s.finished) {floor : ℕ} (hfloor : floor ≤ s.finished) :
    (check s p floor : Task T C A).Ahead := by
  rw [check]
  split
  · rename_i v hv
    exact le_trans hfloor (h.2 p v hv)
  · trivial

theorem advance_ahead (hk : k.Lawful) (h : Clean s s.finished) (hright : t.Right k s) (ht : t.Ahead) :
    (advance k s i p t).2.Ahead := by
  cases t with
  | asking floor => exact fun e he => le_trans hright (h.1 e he)
  | answered floor raw =>
    rw [advance]
    split
    · rename_i v hv
      cases raw with
      | none => cases hv
      | some e =>
        obtain ⟨v', hv', -, hat⟩ := decode_real hk (hright.2 e rfl)
        obtain rfl := some.inj (hv.symm.trans hv')
        have hfloor := ht e rfl
        rwa [← hat] at hfloor
    · exact check_ahead h hright.1
  | waiting floor =>
    rw [advance]
    split
    · trivial
    · rename_i v _ hv
      exact le_trans hright (h.2 p v hv)
    · trivial
  | loaded floor v =>
    rw [advance]
    split
    · trivial
    · exact hright.1
  | stored floor v => exact hright.1
  | got floor v => exact ht
  | written number a =>
    rw [advance]
    split <;> trivial
  | _ => trivial

/-- clean tiers, and no call that is behind -/
structure Current (k : Cache D T C A) (s : St D T C A) : Prop where
  inv : Inv k s
  clean : Clean s s.finished
  ahead : ∀ (i p : ℕ) (t : Task T C A), s.calls[i]? = some (p, t) → t.Ahead

theorem step_current (hk : k.Lawful) (h : Current k s) (o : Op C) (ho : Timely k s o) : Current k (step k s o) := by
  refine ⟨(step_inv hk h.inv o).1, (step_clean hk h.inv h.clean o).2 ho, ?_⟩
  intro i p t hi
  cases o with
  | get p' =>
    rcases Locks.getElem?_snoc_cases hi with hi | hself
    · exact h.ahead i p t hi
    · cases hself
      by_cases hshared : k.shared = true
      · rw [if_pos hshared]
        trivial
      · rw [if_neg hshared]
        exact check_ahead h.clean le_rfl
  | change q c =>
    rcases Locks.getElem?_snoc_cases hi with hi | hself
    · exact h.ahead i p t hi
    · cases hself
      trivial
  | next j =>
    rw [step] at hi
    split at hi
    · rename_i q u hj
      rcases Locks.getElem?_set_cases hi with ⟨-, hself⟩ | ⟨-, hi⟩
      · cases hself
        exact advance_ahead hk h.clean (h.inv.calls j _ u hj) (h.ahead j _ u hj)
      · exact h.ahead i p t hi
    · exact h.ahead i p t hi
  | expire | tick _ => exact h.ahead i p t hi

theorem run_current (hk : k.Lawful) (db : D) {ops : List (Op C)} (h : Runs.Legal (step k) (Timely k) (start db) ops) :
    Current k (run k (start db) ops) := by
  refine Runs.legal_inv (step k) (Timely k) (Current k) (fun s o hs ho => step_current hk hs o ho) ops ?_ h
  refine ⟨run_inv hk db [], ⟨fun _ _ => Nat.zero_le _, fun _ _ _ => Nat.zero_le _⟩, ?_⟩
  intro i p t hi
  simp [start] at hi

theorem Current.fresh (h : Current k s) : Fresh k s :=
  fun i p _ _ hi => ⟨h.ahead i p _ hi, h.inv.calls i p _ hi⟩

/-! ## A `get` right now -/

/-- a `get` in process `p`, with the Redis key expired before it or not, until it has its value or would load one -/
def probe (evict : Bool) (p n : ℕ) : List (Op C) := (if evict then [.expire] else []) ++ [.get p, .next n, .next n]

/-- the probe's value, where it has one, is from after its floor -/
def Probes (k : Cache D T C A) (s : St D T C A) : Prop :=
  ∀ evict p q floor v, (run k s (probe evict p s.calls.length)).calls[s.calls.length]? = some (q, .got floor v) →
    floor ≤ v.loadedAt

theorem step_next (k : Cache D T C A) (hi : s.calls[i]? = some (p, t)) :
    step k s (.next i) = { (advance k s i p t).1 with calls := s.calls.set i (p, (advance k s i p t).2) } := by
  rw [step, hi]

theorem calls_set_own {calls : List (ℕ × Task T C A)} {x : ℕ × Task T C A} (y : ℕ × Task T C A) (hi : calls[i]? = some x) :
    (calls.set i y)[i]? = some y := by
  rw [List.getElem?_set_self']
  simp [hi]

/-- a `get` that has not come further than its first await, and one that has not read the table -/
def Task.called : Task T C A → Prop
  | .asking _ | .waiting _ | .got _ _ => True
  | _ => False

def Task.early : Task T C A → Prop
  | .asking _ | .answered _ _ | .waiting _ | .loading _ | .got _ _ => True
  | _ => False

theorem Task.called.early (h : t.called) : t.early := by
  cases t <;> trivial

theorem check_called (s : St D T C A) (p floor : ℕ) : (check s p floor : Task T C A).called := by
  rw [check]
  split <;> trivial

theorem advance_early (ht : t.called) : (advance k s i p t).2.early := by
  cases t with
  | asking _ | got _ _ => trivial
  | waiting floor =>
    rw [advance]
    split <;> trivial
  | _ => exact ht.elim

theorem early_timely (hi : s.calls[i]? = some (p, t)) (ht : t.early) : Timely k s (.next i) := by
  rw [Timely, hi]
  cases t with
  | loaded _ _ | storing _ _ | written _ _ | deleted _ _ => exact ht.elim
  | _ => trivial

theorem called_get (k : Cache D T C A) (s : St D T C A) (p : ℕ) :
    ∃ t : Task T C A, (step k s (.get p)).calls[s.calls.length]? = some (p, t) ∧ t.called := by
  refine ⟨_, List.getElem?_concat_length, ?_⟩
  split
  · trivial
  · exact check_called s p _

theorem probe_ahead (hk : k.Lawful) (h : Current k s) (p : ℕ) {q floor : ℕ}
    (hlast : (run k s [.get p, .next s.calls.length, .next s.calls.length]).calls[s.calls.length]? = some (q, .got floor v)) :
    floor ≤ v.loadedAt := by
  obtain ⟨t, ht, hcalled⟩ := called_get k s p
  have hget : Current k (step k s (.get p)) := step_current hk h _ trivial
  have hfirst := step_current hk hget _ (early_timely ht hcalled.early)
  have hnext : (step k (step k s (.get p)) (.next s.calls.length)).calls[s.calls.length]? =
      some (p, (advance k (step k s (.get p)) s.calls.length p t).2) := by
    rw [step_next k ht]
    exact calls_set_own _ ht
  have hsecond := step_current hk hfirst _ (early_timely hnext (advance_early hcalled))
  exact hsecond.ahead _ _ _ hlast

theorem Current.probes (hk : k.Lawful) (h : Current k s) : Probes k s := by
  intro evict p q floor v hlast
  cases evict with
  | false => exact probe_ahead hk h p hlast
  | true => exact probe_ahead hk (step_current hk h .expire trivial) p hlast

theorem advance_answered (floor : ℕ) (raw : Option (PyStr × ℕ)) :
    (advance k s i p (.answered floor raw)).2 = match decode k raw with
      | some v => .got floor v
      | none => check s p floor := by
  rw [advance]
  cases decode k raw with
  | none | some _ => rfl

/-- a `get` that asks Redis -/
theorem probe_shared (hshared : k.shared = true) (p : ℕ) :
    (run k s [.get p, .next s.calls.length, .next s.calls.length]).calls[s.calls.length]? =
      some (p, match decode k s.redis with
        | some v => .got s.finished v
        | none => check s p s.finished) := by
  have hget : step k s (.get p) = { s with calls := s.calls ++ [(p, .asking s.finished)] } := by
    rw [step, if_pos hshared]
  have hasking : ({ s with calls := s.calls ++ [(p, .asking s.finished)] } : St D T C A).calls[s.calls.length]? =
      some (p, .asking s.finished) := List.getElem?_concat_length
  simp only [run_cons, run_nil]
  rw [hget, step_next k hasking]
  have hanswered := calls_set_own (p, Task.answered s.finished s.redis) hasking
  rw [step_next k hanswered]
  refine (calls_set_own _ hanswered).trans ?_
  rw [advance_answered]
  rfl

theorem step_got {floor : ℕ} (hi : s.calls[i]? = some (p, .got floor v)) :
    (step k s (.next i)).calls[i]? = some (p, .got floor v) := by
  rw [step_next k hi]
  exact calls_set_own _ hi

/-- a `get` without Redis -/
theorem probe_alone (hshared : ¬ k.shared = true) (hv : s.held p = some v) :
    (run k s [.get p, .next s.calls.length, .next s.calls.length]).calls[s.calls.length]? = some (p, .got s.finished v) := by
  have hget : (step k s (.get p)).calls[s.calls.length]? = some (p, .got s.finished v) := by
    rw [step, if_neg hshared, check, hv]
    exact List.getElem?_concat_length
  exact step_got (step_got hget)

/-- a stale value in a tier reaches a `get` -/
theorem probes_clean (hk : k.Lawful) (h : Tiers k s) (hprobes : Probes k s) : Clean s s.finished := by
  constructor
  · intro e he
    obtain ⟨v, hv, -, hat⟩ := decode_real hk (h.redis_real e he)
    have hprobe := probe_shared (s := s) (h.only_shared e he) 0
    rw [he, hv] at hprobe
    have hahead := hprobes false 0 0 _ v hprobe
    rwa [hat] at hahead
  · intro p v hv
    have hheld : (step k s .expire).held p = some v := hv
    by_cases hshared : k.shared = true
    · have hprobe := probe_shared (s := step k s .expire) hshared p
      rw [show decode k (step k s .expire).redis = none from rfl, check, hheld] at hprobe
      exact hprobes true p p _ v hprobe
    · exact hprobes true p p _ v (probe_alone hshared hheld)

end Current

/-- **Invalidation is effective in the timely runs, and only there.** Every `get` of a run whose steps are timely is
fresh; and from every state of a run a `get` made at once is so exactly when its steps are. -/
theorem effective {D T C A : Type} {k : Cache D T C A} (hk : k.Lawful) (db : D) (ops : List (Op C)) :
    (Runs.Legal (step k) (Timely k) (start db) ops → ∀ m, Fresh k (run k (start db) (ops.take m))) ∧
      ((∀ m, Probes k (run k (start db) (ops.take m))) ↔ Runs.Legal (step k) (Timely k) (start db) ops) := by
  have hcurrent : Runs.Legal (step k) (Timely k) (start db) ops → ∀ m, Current k (run k (start db) (ops.take m)) := by
    intro hlegal m
    rw [← List.take_append_drop m ops, Runs.legal_append] at hlegal
    exact run_current hk db hlegal.1
  refine ⟨fun hlegal m => (hcurrent hlegal m).fresh, ?_, fun hlegal m => (hcurrent hlegal m).probes hk⟩
  intro hprobes
  apply (current_iff hk db ops).1
  intro m
  exact probes_clean hk (run_inv hk db _).tiers (hprobes m)

end Teardrop.TtlCache
