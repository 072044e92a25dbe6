/-
The sliding-window rate limiter (`_check_rate_limit` of `teardrop/rate_limit.py`): a sorted set of Redis for each key, or a list
in the process.

Times are seconds, exact: near the current time the float subtractions of the code are. A member of the sorted set is
`{now}_{token}` with the score `now`, so the set is one of times and tokens. Redis runs the pipeline at the time of the request
and does not fail.
-/
import Teardrop.Core.Dict

namespace Teardrop.RateLimit

open List

/-! ## The two backends -/

structure Request where
  key : String
  /-- `time.time()` -/
  time : ℚ
  /-- `secrets.token_hex(3)` -/
  token : ℕ

def Request.member (r : Request) : ℚ × ℕ := (r.time, r.token)

def window : ℚ := 60

structure RateLimitResult where
  allowed : Bool
  remaining : ℤ
  resetEpoch : ℤ

def resetEpoch (r : Request) : ℤ := ⌊r.time + window⌋

/-- a sorted set, its members with their scores, and when it expires -/
structure SortedSet where
  members : Finset (ℚ × ℕ) := ∅
  expiresAt : ℚ := 0

/-- the members at `now`: an expired set is gone -/
def SortedSet.live (z : SortedSet) (now : ℚ) : Finset (ℚ × ℕ) := if z.expiresAt < now then ∅ else z.members

abbrev Redis := String → SortedSet

/-- the pipeline: `ZREMRANGEBYSCORE`, `ZCARD`, `ZADD`, `EXPIRE` -/
def redisCheck (limit : ℤ) (redis : Redis) (r : Request) : RateLimitResult × Redis :=
  let kept := ((redis r.key).live r.time).filter (fun m => r.time - window ≤ m.1)
  let count : ℤ := kept.card
  (⟨count < limit, max 0 (limit - count - 1), resetEpoch r⟩, Function.update redis r.key ⟨insert r.member kept, r.time + 61⟩)

abbrev Counters := Dict String (List ℚ)

def rateCounterMaxKeys : ℕ := 10000

/-- the times of a key that are still in the window -/
def history (counters : Counters) (r : Request) : List ℚ := (counters.getD r.key []).filter (fun t => r.time - t < window)

/-- the first key goes when there are too many -/
def evict (counters : Counters) : Counters :=
  if rateCounterMaxKeys < counters.keys.length then counters.popFirst else counters

def localCheck (limit : ℤ) (counters : Counters) (r : Request) : RateLimitResult × Counters :=
  if limit ≤ (history counters r).length then (⟨false, 0, resetEpoch r⟩, counters.set r.key (history counters r))
  else
    (⟨true, max 0 (limit - ((history counters r).length + 1)), resetEpoch r⟩,
      evict (counters.set r.key (history counters r ++ [r.time])))

/-- which requests of a trace a backend admits -/
def decisions {S : Type} (check : S → Request → RateLimitResult × S) : S → List Request → List Bool
  | _, [] => []
  | s, r :: rest => (check s r).1.allowed :: decisions check (check s r).2 rest

/-! ## What the trace says -/

/-- the members that the earlier requests leave for a request to find: those of its key in the last 60 seconds -/
def recorded (earlier : List Request) (r : Request) : Finset (ℚ × ℕ) :=
  ((earlier.filter (fun q => q.key = r.key)).map Request.member).toFinset.filter (fun m => r.time - window ≤ m.1)

/-- among some earlier requests, those of the key that are less than 60 seconds old -/
def recent (earlier : List Request) (r : Request) : ℕ :=
  earlier.countP (fun q => q.key = r.key ∧ r.time - q.time < window)

/-- the requests of `rest`, after `earlier`, that find fewer than `limit` members -/
def passedFrom (limit : ℤ) (earlier : List Request) : List Request → List Request
  | [] => []
  | r :: rest =>
    (if ((recorded earlier r).card : ℤ) < limit then [r] else []) ++ passedFrom limit (earlier ++ [r]) rest

def passed (limit : ℤ) (trace : List Request) : List Request := passedFrom limit [] trace

variable (limit : ℤ) {earlier : List Request} {r : Request} {counters : Counters}

theorem passedFrom_snoc (earlier rest : List Request) (r : Request) : passedFrom limit earlier (rest ++ [r]) =
      passedFrom limit earlier rest ++ if ((recorded (earlier ++ rest) r).card : ℤ) < limit then [r] else [] := by
  induction rest generalizing earlier with
  | nil => simp [passedFrom]
  | cons q rest ih => simp [passedFrom, ih, append_assoc]

theorem passed_snoc (trace : List Request) (r : Request) :
    passed limit (trace ++ [r]) = passed limit trace ++ if ((recorded trace r).card : ℤ) < limit then [r] else [] := by
  rw [passed, passedFrom_snoc, nil_append]
  rfl

/-! ## Redis -/

/-- after `earlier`, from any later time on, the sets hold the members of the window -/
def Records (earlier : List Request) (redis : Redis) : Prop :=
  ∀ k now, (∀ q ∈ earlier, q.time ≤ now) → ((redis k).live now).filter (fun m => now - window ≤ m.1) =
      ((earlier.filter (fun q => q.key = k)).map Request.member).toFinset.filter (fun m => now - window ≤ m.1)

theorem records_empty : Records [] (fun _ => {}) := by
  intro k now _
  simp [SortedSet.live]

theorem redis_decision {redis : Redis} (h : Records earlier redis) (hlast : ∀ q ∈ earlier, q.time ≤ r.time) :
    (redisCheck limit redis r).1.allowed = decide (((recorded earlier r).card : ℤ) < limit) := by
  rw [recorded, ← h r.key r.time hlast]
  rfl

theorem Records.check {redis : Redis} (h : Records earlier redis) (hlast : ∀ q ∈ earlier, q.time ≤ r.time) :
    Records (earlier ++ [r]) (redisCheck limit redis r).2 := by
  intro k now hnow
  have hearlier : ∀ q ∈ earlier, q.time ≤ now := fun q hq => hnow q (mem_append_left _ hq)
  have hr : r.time ≤ now := hnow r (mem_append_right _ mem_cons_self)
  by_cases hk : k = r.key
  · subst hk
    have hall : ((earlier ++ [r]).filter (fun q => q.key = r.key)).map Request.member =
        (earlier.filter (fun q => q.key = r.key)).map Request.member ++ [r.member] := by
      simp
    simp only [redisCheck, Function.update_self, hall]
    rw [h r.key r.time hlast]
    ext m
    simp only [SortedSet.live]
    split_ifs with hexpired
    · -- the set expired, and so long after its last request that nothing of it counts
      constructor
      · simp
      · intro hm
        obtain ⟨hmem, hscore⟩ := Finset.mem_filter.1 hm
        rw [mem_toFinset, mem_append, mem_map, mem_singleton] at hmem
        have hold : m.1 ≤ r.time := by
          rcases hmem with ⟨q, hq, rfl⟩ | rfl
          · exact hlast q (mem_of_mem_filter hq)
          · exact le_refl _
        unfold window at hscore
        linarith
    · simp only [Finset.mem_filter, Finset.mem_insert, mem_toFinset, mem_append, mem_singleton]
      constructor
      · intro hm
        obtain ⟨hmem | ⟨hmem, -⟩, hscore⟩ := hm
        · exact ⟨.inr hmem, hscore⟩
        · exact ⟨.inl hmem, hscore⟩
      · intro hm
        obtain ⟨hmem | hmem, hscore⟩ := hm
        · exact ⟨.inr ⟨hmem, by linarith⟩, hscore⟩
        · exact ⟨.inl hmem, hscore⟩
  · have hsame : (earlier ++ [r]).filter (fun q => q.key = k) = earlier.filter (fun q => q.key = k) := by
      simp [Ne.symm hk]
    rw [hsame]
    simp only [redisCheck, Function.update_of_ne hk]
    exact h k now hearlier

/-! ## The process -/

/-- after `earlier`, of which `admitted` were admitted, the histories hold the admitted times of the window, and the keys are
those of requests -/
structure Histories (earlier admitted : List Request) (counters : Counters) : Prop where
  times : ∀ k now, (∀ q ∈ earlier, q.time ≤ now) → (counters.getD k []).filter (fun t => now - t < window) =
      ((admitted.filter (fun q => q.key = k)).map Request.time).filter (fun t => now - t < window)
  keys : ∀ k ∈ counters.keys, ∃ q ∈ earlier, q.key = k

theorem histories_empty : Histories [] [] Dict.empty :=
  ⟨fun _ _ _ => rfl, fun _ hk => absurd hk (not_mem_nil)⟩

theorem recent_eq (admitted : List Request) (r : Request) : recent admitted r =
      (((admitted.filter (fun q => q.key = r.key)).map Request.time).filter (fun t => r.time - t < window)).length := by
  rw [recent, filter_map, length_map, filter_filter, ← countP_eq_length_filter]
  apply countP_congr
  simp [and_comm]

theorem local_decision {admitted : List Request} (h : Histories earlier admitted counters)
    (hlast : ∀ q ∈ earlier, q.time ≤ r.time) :
    (localCheck limit counters r).1.allowed = decide ((recent admitted r : ℤ) < limit) := by
  rw [recent_eq, ← h.times r.key r.time hlast, ← history, localCheck]
  by_cases hfull : limit ≤ (history counters r).length
  · rw [if_pos hfull]
    exact (decide_eq_false (not_lt.2 hfull)).symm
  · rw [if_neg hfull]
    exact (decide_eq_true (not_le.1 hfull)).symm

theorem keys_length (hkeys : ∀ k ∈ counters.keys, ∃ q ∈ earlier, q.key = k) :
    counters.keys.length ≤ (earlier.map Request.key).toFinset.card := by
  have hnodup : counters.keys.Nodup := counters.nodup
  rw [← toFinset_card_of_nodup hnodup]
  apply Finset.card_le_card
  intro k hk
  obtain ⟨q, hq, rfl⟩ := hkeys k (mem_toFinset.1 hk)
  exact mem_toFinset.2 (mem_map_of_mem hq)

theorem evict_few (hkeys : ∀ k ∈ counters.keys, ∃ q ∈ earlier, q.key = k)
    (hfew : (earlier.map Request.key).toFinset.card < rateCounterMaxKeys) : evict counters = counters :=
  if_neg (not_lt.2 ((keys_length hkeys).trans hfew.le))

theorem Histories.check {admitted : List Request} (h : Histories earlier admitted counters)
    (hlast : ∀ q ∈ earlier, q.time ≤ r.time) (hfew : ((earlier ++ [r]).map Request.key).toFinset.card < rateCounterMaxKeys) :
    Histories (earlier ++ [r]) (admitted ++ if (localCheck limit counters r).1.allowed = true then [r] else [])
      (localCheck limit counters r).2 := by
  -- the history of the key, cut to the window of the request, answers for every later window
  have hcut : ∀ now, r.time ≤ now → (history counters r).filter (fun t => now - t < window) =
      ((admitted.filter (fun q => q.key = r.key)).map Request.time).filter (fun t => now - t < window) := by
    intro now hr
    rw [history, h.times r.key r.time hlast, filter_filter]
    apply filter_congr
    intro t _
    have himp : now - t < window → r.time - t < window := fun hlt => by linarith
    by_cases hlt : now - t < window
    · simp [himp hlt]
    · simp [hlt]
  have hset : ∀ (times : List ℚ) k, k ∈ (counters.set r.key times).keys → ∃ q ∈ earlier ++ [r], q.key = k := by
    intro times k hk
    rcases Dict.mem_keys_set.1 hk with rfl | hk
    · exact ⟨r, mem_append_right _ mem_cons_self, rfl⟩
    · obtain ⟨q, hq, hqk⟩ := h.keys k hk
      exact ⟨q, mem_append_left _ hq, hqk⟩
  rw [localCheck]
  by_cases hfull : limit ≤ (history counters r).length
  · rw [if_pos hfull]
    refine ⟨fun k now hnow => ?_, hset _⟩
    have hr : r.time ≤ now := hnow r (mem_append_right _ mem_cons_self)
    simp only [Dict.getD_set, Bool.false_eq_true, if_false, append_nil]
    split_ifs with hk
    · rw [hk]
      exact hcut now hr
    · exact h.times k now (fun q hq => hnow q (mem_append_left _ hq))
  · rw [if_neg hfull, evict_few (hset _) hfew]
    refine ⟨fun k now hnow => ?_, hset _⟩
    have hr : r.time ≤ now := hnow r (mem_append_right _ mem_cons_self)
    simp only [Dict.getD_set, if_true, filter_append, map_append]
    split_ifs with hk
    · rw [filter_append, hcut now hr, hk]
      simp
    · have hne : ¬ r.key = k := Ne.symm hk
      rw [h.times k now (fun q hq => hnow q (mem_append_left _ hq))]
      simp [hne]

/-! ## The two together -/

/-- at a request, the count with refused requests and the edge reaches the limit when the count without them does -/
def CountsAlike (limit : ℤ) (earlier : List Request) (r : Request) : Prop :=
  ((recorded earlier r).card : ℤ) < limit ↔ (recent (passed limit earlier) r : ℤ) < limit

instance (limit : ℤ) (earlier : List Request) (r : Request) : Decidable (CountsAlike limit earlier r) :=
  inferInstanceAs (Decidable (_ ↔ _))

theorem decisions_agree {limit : ℤ} (rest : List Request) : ∀ {earlier : List Request} {redis : Redis} {counters : Counters},
    Records earlier redis → Histories earlier (passed limit earlier) counters →
    (earlier ++ rest).Pairwise (fun q r => q.time ≤ r.time) →
    ((earlier ++ rest).map Request.key).toFinset.card < rateCounterMaxKeys →
    (decisions (redisCheck limit) redis rest = decisions (localCheck limit) counters rest ↔
      ∀ mid r post, rest = mid ++ r :: post → CountsAlike limit (earlier ++ mid) r) := by
  induction rest with
  | nil =>
    simp [decisions]
  | cons r rest ih =>
    intro earlier redis counters hrecords hhistories hmono hfew
    have hlast : ∀ q ∈ earlier, q.time ≤ r.time := fun q hq =>
      (pairwise_append.1 hmono).2.2 q hq r mem_cons_self
    have hfirst : earlier ++ r :: rest = (earlier ++ [r]) ++ rest := by simp
    have hfew' : ((earlier ++ [r]).map Request.key).toFinset.card < rateCounterMaxKeys := by
      have hsub : ((earlier ++ [r]).map Request.key).toFinset ⊆ ((earlier ++ r :: rest).map Request.key).toFinset := by
        intro k hk
        obtain ⟨q, hq, rfl⟩ := mem_map.1 (mem_toFinset.1 hk)
        rw [hfirst]
        exact mem_toFinset.2 (mem_map_of_mem (mem_append_left _ hq))
      exact lt_of_le_of_lt (Finset.card_le_card hsub) hfew
    have hredis := redis_decision limit hrecords hlast
    have hlocal := local_decision limit hhistories hlast
    rw [decisions, decisions, cons.injEq, hredis, hlocal, decide_eq_decide]
    have hsplit : (∀ mid q post, r :: rest = mid ++ q :: post → CountsAlike limit (earlier ++ mid) q) ↔
        CountsAlike limit earlier r ∧
          ∀ mid q post, rest = mid ++ q :: post → CountsAlike limit ((earlier ++ [r]) ++ mid) q := by
      constructor
      · intro hall
        refine ⟨by simpa using hall [] r rest rfl, fun mid q post heq => ?_⟩
        have hq := hall (r :: mid) q post (by rw [heq, cons_append])
        simpa using hq
      · intro hall mid q post heq
        cases mid with
        | nil =>
          obtain ⟨rfl, rfl⟩ := cons.inj heq
          simpa using hall.1
        | cons q' mid =>
          obtain ⟨rfl, heq'⟩ := cons.inj heq
          simpa using hall.2 mid q post heq'
    rw [hsplit]
    apply and_congr_right
    intro halike
    -- as the request is decided alike, the admitted requests stay those that pass
    have hpassed : passed limit (earlier ++ [r]) =
        passed limit earlier ++ if (localCheck limit counters r).1.allowed = true then [r] else [] := by
      rw [passed_snoc, hlocal]
      congr 1
      simp [halike]
    have hnext := hhistories.check limit hlast hfew'
    rw [← hpassed] at hnext
    exact ih (hrecords.check limit hlast) hnext (hfirst ▸ hmono) (hfirst ▸ hfew)

theorem forall_splits {α : Type} {trace : List α} {P : List α → α → Prop} :
    (∀ earlier r later, trace = earlier ++ r :: later → P earlier r) ↔ ∀ i : Fin trace.length, P (trace.take i) (trace.get i) := by
  constructor
  · intro h i
    exact h _ _ (trace.drop (i + 1)) (by simp)
  · intro h earlier r later heq
    subst heq
    simpa using h ⟨earlier.length, by simp⟩

/-- **The two backends.** For every limit and every trace with times that do not decrease and fewer keys than the process
keeps: both backends admit the same requests if and only if, at every request, the count of Redis, with refused requests and
those exactly 60 seconds old, reaches the limit when the count of admitted requests of the last 60 seconds does. -/
theorem backends_agree_iff (limit : ℤ) (trace : List Request) (hmono : trace.Pairwise (fun q r => q.time ≤ r.time))
    (hfew : (trace.map Request.key).toFinset.card < rateCounterMaxKeys) :
    decisions (redisCheck limit) (fun _ => {}) trace = decisions (localCheck limit) Dict.empty trace ↔
      ∀ i : Fin trace.length, CountsAlike limit (trace.take i) (trace.get i) :=
  (decisions_agree trace records_empty histories_empty hmono hfew).trans forall_splits

/-- a client that waits for more than a minute after each request -/
def patient : List Request := [⟨"run:u", 0, 1⟩, ⟨"run:v", 30, 2⟩, ⟨"run:u", 61, 3⟩, ⟨"run:u", 122, 4⟩]

theorem backends_agree_patient :
    decisions (redisCheck 1) (fun _ => {}) patient = decisions (localCheck 1) Dict.empty patient :=
  (backends_agree_iff 1 patient (by decide +kernel) (by decide +kernel)).2 (by decide +kernel)

/-- a client that tries every half minute -/
def impatient : List Request :=
  [⟨"run:u", 0, 1⟩, ⟨"run:u", 30, 2⟩, ⟨"run:u", 61, 3⟩, ⟨"run:u", 91, 4⟩, ⟨"run:u", 122, 5⟩]

/-- in the process it is admitted each minute, through Redis never again -/
theorem retries_starve :
    decisions (localCheck 1) Dict.empty impatient = [true, false, true, false, true] ∧
      decisions (redisCheck 1) (fun _ => {}) impatient = [true, false, false, false, false] := by
  decide +kernel

/-! ## The bound -/

/-- the requests a backend admits -/
def admits {S : Type} (check : S → Request → RateLimitResult × S) : S → List Request → List Request
  | _, [] => []
  | s, r :: rest => (if (check s r).1.allowed = true then [r] else []) ++ admits check (check s r).2 rest

/-- the requests of a key in the 60 seconds from `t` on -/
def countFrom (k : String) (t : ℚ) (requests : List Request) : ℕ :=
  requests.countP (fun q => q.key = k ∧ t ≤ q.time ∧ q.time < t + window)

variable {limit : ℤ} {earlier adm : List Request} {r : Request} {k : String} {t : ℚ}

theorem countFrom_admitted (hadm : (countFrom k t adm : ℤ) ≤ max 0 limit) (hrecent : (recent adm r : ℤ) < limit) :
    (countFrom k t (adm ++ [r]) : ℤ) ≤ max 0 limit := by
  by_cases hr : r.key = k ∧ t ≤ r.time ∧ r.time < t + window
  · have hle : countFrom k t adm ≤ recent adm r := countP_mono_left fun q _ hq => by
      obtain ⟨hk, hfrom, hto⟩ := of_decide_eq_true hq
      exact decide_eq_true ⟨hk.trans hr.1.symm, by linarith [hr.2.2]⟩
    have hone : countFrom k t (adm ++ [r]) = countFrom k t adm + 1 := by simp [countFrom, hr]
    omega
  · have hnone : countFrom k t (adm ++ [r]) = countFrom k t adm := by simp [countFrom, hr]
    rwa [hnone]

/-- a backend whose state, by `I`, answers for the requests so far -/
theorem admits_bounded {S : Type} {check : S → Request → RateLimitResult × S} (I : List Request → List Request → S → Prop)
    {trace : List Request} (hstep : ∀ earlier r rest adm s, trace = earlier ++ r :: rest → I earlier adm s →
      ((check s r).1.allowed = true → (recent adm r : ℤ) < limit) ∧
        I (earlier ++ [r]) (adm ++ if (check s r).1.allowed = true then [r] else []) (check s r).2)
    (earlier adm rest : List Request) {s : S} (htrace : trace = earlier ++ rest)
    (hI : I earlier adm s) (hadm : (countFrom k t adm : ℤ) ≤ max 0 limit) : (countFrom k t (adm ++ admits check s rest) : ℤ) ≤ max 0 limit := by
  induction rest generalizing earlier adm s with
  | nil => simpa [admits] using hadm
  | cons r rest ih =>
    obtain ⟨hallowed, hnext⟩ := hstep earlier r rest adm s htrace hI
    rw [admits, ← append_assoc]
    refine ih _ _ (by rw [htrace, append_assoc, singleton_append]) hnext ?_
    split_ifs with h
    · exact countFrom_admitted hadm (hallowed h)
    · rwa [append_nil]

theorem recent_le_recorded (hsub : adm.Sublist earlier) (hnodup : (earlier.map Request.member).Nodup) :
    recent adm r ≤ (recorded earlier r).card := by
  refine (hsub.countP_le (p := fun q => decide (q.key = r.key ∧ r.time - q.time < window))).trans ?_
  rw [countP_eq_length_filter, ← length_map (f := Request.member),
    ← toFinset_card_of_nodup (hnodup.sublist (filter_sublist.map _))]
  apply Finset.card_le_card
  intro m hm
  obtain ⟨q, hq, rfl⟩ := mem_map.1 (mem_toFinset.1 hm)
  obtain ⟨hmem, hwindow⟩ := mem_filter.1 hq
  obtain ⟨hk, htime⟩ := of_decide_eq_true hwindow
  refine Finset.mem_filter.2 ⟨mem_toFinset.2 (mem_map_of_mem (mem_filter.2 ⟨hmem, decide_eq_true hk⟩)), ?_⟩
  show r.time - window ≤ q.time
  linarith

/-- **The limit is one per minute.** Over any trace with times that do not decrease, no 60 seconds see more than `limit` admitted
requests of a key: through Redis when no two requests make one member, in the process when it keeps every key. -/
theorem admitted_per_window (limit : ℤ) (trace : List Request) (hmono : trace.Pairwise (fun q r => q.time ≤ r.time)) (k : String)
    (t : ℚ) : ((trace.map Request.member).Nodup →
        (countFrom k t (admits (redisCheck limit) (fun _ => {}) trace) : ℤ) ≤ max 0 limit) ∧
      ((trace.map Request.key).toFinset.card < rateCounterMaxKeys →
        (countFrom k t (admits (localCheck limit) Dict.empty trace) : ℤ) ≤ max 0 limit) := by
  have hlast : ∀ {earlier r rest}, trace = earlier ++ r :: rest → ∀ q ∈ earlier, q.time ≤ r.time := fun htrace q hq =>
    (pairwise_append.1 (htrace ▸ hmono)).2.2 q hq _ mem_cons_self
  constructor
  · intro hnodup
    refine admits_bounded (fun earlier adm redis => Records earlier redis ∧ adm.Sublist earlier) ?_ [] [] trace
      (nil_append trace).symm ⟨records_empty, .slnil⟩ (le_max_left 0 limit)
    rintro earlier r rest adm redis htrace ⟨hrecords, hsub⟩
    have hdistinct : (earlier.map Request.member).Nodup := by
      rw [htrace, map_append] at hnodup
      exact hnodup.of_append_left
    refine ⟨fun hallowed => ?_, hrecords.check limit (hlast htrace), hsub.append ?_⟩
    · rw [redis_decision limit hrecords (hlast htrace), decide_eq_true_iff] at hallowed
      exact lt_of_le_of_lt (Int.ofNat_le.2 (recent_le_recorded hsub hdistinct)) hallowed
    · split_ifs
      · exact .refl _
      · exact nil_sublist _
  · intro hfew
    refine admits_bounded Histories ?_ [] [] trace (nil_append trace).symm histories_empty (le_max_left 0 limit)
    intro earlier r rest adm counters htrace hhistories
    have hfirst : (earlier ++ [r]).Sublist trace := by simp [htrace]
    refine ⟨fun hallowed => ?_, hhistories.check limit (hlast htrace) (lt_of_le_of_lt (Finset.card_le_card ?_) hfew)⟩
    · rwa [local_decision limit hhistories (hlast htrace), decide_eq_true_iff] at hallowed
    · exact fun key hkey => mem_toFinset.2 ((hfirst.map _).subset (mem_toFinset.1 hkey))

/-- the client that tries every half minute -/
theorem impatient_per_window :
    (countFrom "run:u" 30 (admits (redisCheck 1) (fun _ => {}) impatient) : ℤ) ≤ max 0 1 ∧
      (countFrom "run:u" 30 (admits (localCheck 1) Dict.empty impatient) : ℤ) ≤ max 0 1 :=
  have h := admitted_per_window 1 impatient (by decide) "run:u" 30
  ⟨h.1 (by decide), h.2 (by decide)⟩

end Teardrop.RateLimit
