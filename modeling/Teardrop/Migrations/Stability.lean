/-
What a further run of the migrations finds after one that succeeded: it is stable exactly when there is nothing to do on the
table, and after a run that succeeded that is so exactly when the records this run found were `Settled`.
-/
import Teardrop.Migrations.Runner

namespace Teardrop.Migrations

open Py List

/-! ## Nothing to do -/

/-- a call by itself: its statements in order, with `k` items of the two loops -/
def solo (i k : ℕ) : List Op := [.call, .lock i, .read i] ++ (List.replicate k (.next i true) ++ [.unlock i])

def Stable (dir : Versions) (s : St) : Prop :=
  (∃ k start, (run dir s (solo s.runs.length k)).runs[s.runs.length]? = some (.ended start (.ok []))) ∧
    ∀ ops, (run dir s ops).table = s.table ∧ (run dir s ops).committed = s.committed ∧
      ∀ i start r, s.runs.length ≤ i → (run dir s ops).runs[i]? = some (.ended start r) → r = .ok []

section Calm

variable {dir : Versions} {squashes : Squashes} {table : Finset String} {committed : List String} {old : ℕ} {s : St}

/-- a run on a table on which there is nothing to do; `recent` runs were called there -/
def Run.Calm (dir : Versions) (squashes : Squashes) (table : Finset String) (recent : Prop) : Run → Prop
  | .working w => w.applied = table ∧ w.squashes = squashes ∧ (∀ e ∈ w.baselines, e ∈ squashes.entries) ∧
      (∀ f ∈ w.files, f ∈ discoverMigrations dir) ∧ w.newly = []
  | .leaving _ r => r = .ok []
  | .ended _ r => recent → r = .ok []
  | _ => True

theorem turn_idle (hidle : Idle dir squashes table) (ok : Bool) {w : Work} {recent : Prop}
    (hw : (Run.working w).Calm dir squashes table recent) :
    (∃ w', turn ok w = .skip w' ∧ w'.start = w.start ∧ (Run.working w').Calm dir squashes table recent ∧
        w'.baselines.length + w'.files.length + 1 = w.baselines.length + w.files.length) ∨
      (turn ok w = .stop (.ok []) ∧ w.baselines.length + w.files.length = 0) := by
  obtain ⟨start, applied, squashes', baselines, files, newly⟩ := w
  obtain ⟨happlied, hsquashes, hbaselines, hfiles, hnewly⟩ := hw
  subst happlied hsquashes hnewly
  cases baselines with
  | cons e rest =>
    obtain ⟨hfull, hempty⟩ := hidle.1 e (hbaselines e mem_cons_self)
    refine .inl ⟨⟨start, applied, squashes', rest, files, []⟩, ?_, rfl, ?_, ?_⟩
    · rcases adopt_cases ok e.1 e.2 ⟨start, applied, squashes', rest, files, []⟩ with
        ⟨hturn, -⟩ | ⟨-, hout, ⟨v, hv, hin⟩, -⟩ | ⟨err, -, ⟨hin, v, hv, hout⟩ | ⟨hout, v, hv, hin⟩⟩
      · exact hturn
      · exact absurd hin (hempty hout v hv)
      · exact absurd (hfull hin v hv) hout
      · exact absurd hin (hempty hout v hv)
    · exact ⟨rfl, rfl, fun e' he' => hbaselines e' (mem_cons_of_mem e he'), hfiles, rfl⟩
    · simp only [length_cons]
      omega
  | nil =>
    cases files with
    | nil => exact .inr ⟨turn_end ok rfl rfl, rfl⟩
    | cons f rest =>
      refine .inl ⟨⟨start, applied, squashes', [], rest, []⟩, ?_, rfl, ?_, ?_⟩
      · rcases applyFile_cases ok f ⟨start, applied, squashes', [], rest, []⟩ with ⟨hturn, -⟩ | ⟨hnew, hactive, -⟩
        · exact hturn
        · exact absurd (hidle.2 f (hfiles f mem_cons_self)) (not_or.2 ⟨hnew, hactive⟩)
      · exact ⟨rfl, rfl, hbaselines, fun g hg => hfiles g (mem_cons_of_mem f hg), rfl⟩
      · simp only [length_cons, length_nil]
        omega

/-- the runs from a state with `old` runs, of which none was active -/
structure CalmSt (dir : Versions) (squashes : Squashes) (table : Finset String) (committed : List String) (old : ℕ)
    (s : St) : Prop where
  table_eq : s.table = table
  committed_eq : s.committed = committed
  runs : ∀ (i : ℕ) (r : Run), s.runs[i]? = some r → r.Calm dir squashes table (old ≤ i)

theorem begin_calm (hsquashes : discoverSquashes dir = .ok squashes) (recent : Prop) :
    (begin dir table).Calm dir squashes table recent := by
  rw [begin_ok hsquashes]
  exact ⟨rfl, rfl, fun _ he => he, fun _ hf => hf, rfl⟩

theorem CalmSt.move (h : CalmSt dir squashes table committed old s) {i : ℕ} {b : Run}
    (hb : b.Calm dir squashes table (old ≤ i)) (holder : Option ℕ) :
    CalmSt dir squashes table committed old ⟨s.table, s.committed, holder, s.runs.set i b⟩ := by
  refine ⟨h.table_eq, h.committed_eq, ?_⟩
  intro j r hj
  rcases Locks.getElem?_set_cases hj with ⟨rfl, rfl⟩ | ⟨-, hj⟩
  · exact hb
  · exact h.runs j r hj

theorem step_calm (hsquashes : discoverSquashes dir = .ok squashes) (hidle : Idle dir squashes table)
    (h : CalmSt dir squashes table committed old s) (o : Op) : CalmSt dir squashes table committed old (step dir s o) := by
  cases o with
  | call =>
    refine ⟨h.table_eq, h.committed_eq, ?_⟩
    intro i r hi
    rw [step, getElem?_append] at hi
    split_ifs at hi with hlt
    · exact h.runs i r hi
    · obtain rfl := mem_singleton.1 (mem_of_getElem? hi)
      trivial
  | lock i =>
    rw [step]
    split
    · exact h.move (b := .locked) trivial _
    · exact h
  | read i =>
    rw [step]
    split
    · apply h.move
      rw [h.table_eq]
      exact begin_calm hsquashes _
    · exact h
  | next i ok =>
    rw [step]
    split
    · rename_i w hi
      rcases turn_idle hidle ok (h.runs i _ hi) with ⟨w', hturn, -, hw', -⟩ | ⟨hturn, -⟩
      · rw [hturn]
        simpa [Turn.versions, Turn.scripts, Turn.run] using h.move hw' s.holder
      · rw [hturn]
        simpa [Turn.versions, Turn.scripts, Turn.run] using h.move (b := .leaving w.start (.ok [])) rfl s.holder
    · exact h
  | unlock i =>
    rw [step]
    split
    · rename_i start r hi
      exact h.move (b := .ended start r) (fun _ => h.runs i _ hi) _
    · exact h
  | lose i =>
    rw [step]
    split
    · exact h.move (b := .lost) trivial _
    · exact h.move (b := .lost) trivial _
    · exact h.move (b := .lost) trivial _
    · exact h.move (b := .lost) trivial _
    · exact h

end Calm

/-! ## A run by itself -/

section Solo

variable {dir : Versions} {squashes : Squashes} {table : Finset String} {i : ℕ}

theorem getElem?_set_own {runs : List Run} {a : Run} (b : Run) (hi : runs[i]? = some a) : (runs.set i b)[i]? = some b := by
  rw [getElem?_set_self']
  simp [hi]

variable {s : St} {start : Finset String}

theorem step_next (dir : Versions) {w : Work} (ok : Bool) (hi : s.runs[i]? = some (.working w)) :
    (step dir s (.next i ok)).runs[i]? = some ((turn ok w).run w.start) := by
  simp only [step, hi]
  exact getElem?_set_own _ hi

theorem step_next_leaving {r : Call (List String)} (ok : Bool) (hi : s.runs[i]? = some (.leaving start r)) :
    step dir s (.next i ok) = s := by
  simp [step, hi]

theorem solo_leaving {r : Call (List String)} (hi : s.runs[i]? = some (.leaving start r)) (k : ℕ) :
    (run dir s (replicate k (.next i true) ++ [.unlock i])).runs[i]? = some (.ended start r) := by
  induction k with
  | zero =>
    simp only [replicate_zero, nil_append, run_cons, run_nil, step, hi]
    exact getElem?_set_own _ hi
  | succ k ih => rwa [replicate_succ, cons_append, run_cons, step_next_leaving true hi]

theorem solo_ends (hidle : Idle dir squashes table) {recent : Prop} {k : ℕ} {w : Work}
    (hi : s.runs[i]? = some (.working w)) (hw : (Run.working w).Calm dir squashes table recent)
    (hk : w.baselines.length + w.files.length = k) :
    (run dir s (replicate (k + 1) (.next i true) ++ [.unlock i])).runs[i]? = some (.ended w.start (.ok [])) := by
  induction k generalizing s w with
  | zero =>
    rcases turn_idle hidle true hw with ⟨w', -, -, -, hlength⟩ | ⟨hturn, -⟩
    · omega
    · have hnext := step_next dir true hi
      rw [hturn] at hnext
      exact solo_leaving hnext 0
  | succ k ih =>
    rcases turn_idle hidle true hw with ⟨w', hturn, hstart, hw', hlength⟩ | ⟨-, hlength⟩
    · have hnext := step_next dir true hi
      rw [hturn] at hnext
      rw [replicate_succ, cons_append, run_cons, ← hstart]
      exact ih hnext hw' (by omega)
    · omega

theorem solo_idle {k : ℕ} {w : Work} (hi : s.runs[i]? = some (.working w))
    (hend : (run dir s (replicate k (.next i true) ++ [.unlock i])).runs[i]? = some (.ended start (.ok []))) :
    w.newly = [] ∧
      (∀ e ∈ w.baselines, (e.1 ∈ w.applied → ∀ v ∈ e.2, v ∈ w.applied) ∧ (e.1 ∉ w.applied → ∀ v ∈ e.2, v ∉ w.applied)) ∧
      ∀ f ∈ w.files, stem f ∈ w.applied ∨ Superseded w.squashes (stem f) := by
  induction k generalizing s w with
  | zero =>
    simp only [replicate_zero, nil_append, run_cons, run_nil, step, hi] at hend
    cases hend
  | succ k ih =>
    have hnext := step_next dir true hi
    rw [replicate_succ, cons_append, run_cons] at hend
    cases hw : w.baselines with
    | cons e rest =>
      rw [turn_cons true hw] at hnext
      rcases adopt_cases true e.1 e.2 { w with baselines := rest } with ⟨hturn, hcase⟩ | ⟨hturn, -⟩ | ⟨err, hturn, -⟩
      · rw [hturn] at hnext
        obtain ⟨hnewly, hrest, hfiles⟩ := ih hnext hend
        refine ⟨hnewly, ?_, hfiles⟩
        intro e' he'
        rcases mem_cons.1 he' with rfl | he'
        · rcases hcase with ⟨hin, hall⟩ | ⟨hout, hnone⟩
          · exact ⟨fun _ => hall, fun hout => absurd hin hout⟩
          · exact ⟨fun hin => absurd hin hout, fun _ => hnone⟩
        · exact hrest e' he'
      · rw [hturn] at hnext
        have hnewly := (ih hnext hend).1
        simp at hnewly
      · rw [hturn] at hnext
        rw [solo_leaving hnext k] at hend
        cases hend
    | nil =>
      refine (and_congr_right fun _ => and_iff_right ?_).2 ?_
      · exact fun e he => (not_mem_nil he).elim
      · cases hf : w.files with
        | nil =>
          rw [turn_end true hw hf] at hnext
          have hended := (solo_leaving hnext k).symm.trans hend
          simp only [Option.some.injEq, Run.ended.injEq, Except.ok.injEq] at hended
          exact ⟨hended.2, fun f hf => (not_mem_nil hf).elim⟩
        | cons f rest =>
          rw [turn_file true hw hf] at hnext
          rcases applyFile_cases true f { w with files := rest } with ⟨hturn, hskip⟩ | ⟨-, -, ⟨-, hturn⟩ | ⟨hfalse, -⟩⟩
          · rw [hturn] at hnext
            obtain ⟨hnewly, -, hfiles⟩ := ih hnext hend
            refine ⟨hnewly, ?_⟩
            intro g hg
            rcases mem_cons.1 hg with rfl | hg
            · exact hskip
            · exact hfiles g hg
          · rw [hturn] at hnext
            have hnewly := (ih hnext hend).1
            simp at hnewly
          · cases hfalse

theorem solo_begins (dir : Versions) (hfree : s.holder = none) :
    (run dir s [.call, .lock s.runs.length, .read s.runs.length]).runs[s.runs.length]? = some (begin dir s.table) := by
  simp only [run_cons, run_nil, step, hfree, getElem?_concat_length]
  have hset : ((s.runs ++ [Run.waiting]).set s.runs.length .locked)[s.runs.length]? = some .locked :=
    getElem?_set_own _ getElem?_concat_length
  simp only [hset]
  exact getElem?_set_own _ hset

/-- **Stable exactly when there is nothing to do.** -/
theorem stable_iff_idle (hsquashes : discoverSquashes dir = .ok squashes) (hfree : s.holder = none)
    (hnobody : ∀ (i : ℕ) (r : Run), s.runs[i]? = some r → ¬ r.active) : Stable dir s ↔ Idle dir squashes s.table := by
  have hbegin := solo_begins dir hfree
  constructor
  · rintro ⟨⟨k, start, hend⟩, -⟩
    rw [solo, run_append] at hend
    rw [begin_ok hsquashes] at hbegin
    obtain ⟨-, hbaselines, hfiles⟩ := solo_idle hbegin hend
    exact ⟨hbaselines, hfiles⟩
  · intro hidle
    constructor
    · have hcalm : (begin dir s.table).Calm dir squashes s.table True := begin_calm hsquashes True
      rw [begin_ok hsquashes] at hbegin hcalm
      have hend := solo_ends hidle hbegin hcalm rfl
      refine ⟨squashes.entries.length + (discoverMigrations dir).length + 1, s.table, ?_⟩
      exact hend
    · intro ops
      have hstart : CalmSt dir squashes s.table s.committed s.runs.length s := by
        refine ⟨rfl, rfl, ?_⟩
        intro i r hi
        have hlt : i < s.runs.length := (List.getElem?_eq_some_iff.1 hi).1
        cases r with
        | ended start r => exact fun hrecent => absurd hlt (not_lt.2 hrecent)
        | working _ | leaving _ _ => exact absurd trivial (hnobody i _ hi)
        | _ => trivial
      have hcalm : CalmSt dir squashes s.table s.committed s.runs.length (run dir s ops) :=
        Runs.run_inv (step dir) (CalmSt dir squashes s.table s.committed s.runs.length)
          (fun s' o h => step_calm hsquashes hidle h o) ops hstart
      refine ⟨hcalm.table_eq, hcalm.committed_eq, ?_⟩
      intro i start r hrecent hi
      exact hcalm.runs i _ hi hrecent

end Solo

/-! ## Applied once, in order, and stable -/

section Applied

variable {dir : Versions} {squashes : Squashes} {initial : Finset String} {s : St}

/-- a run that is about to unlock, or is over -/
def Run.isOver : Run → Prop
  | .leaving _ _ | .ended _ _ | .lost => True
  | _ => False

theorem step_over {i : ℕ} {r : Run} (hi : s.runs[i]? = some r) (hr : r.isOver) (o : Op) :
    ∃ r', (step dir s o).runs[i]? = some r' ∧ r'.isOver := by
  have hset : ∀ (j : ℕ) (a b : Run), s.runs[j]? = some a → (a.isOver → b.isOver) →
      ∃ r', (s.runs.set j b)[i]? = some r' ∧ r'.isOver := by
    intro j a b hj hab
    by_cases hij : j = i
    · subst hij
      obtain rfl : a = r := Option.some.inj (hj.symm.trans hi)
      exact ⟨b, getElem?_set_own b hj, hab hr⟩
    · exact ⟨r, by rwa [getElem?_set_ne hij], hr⟩
  have hsame : ∃ r', s.runs[i]? = some r' ∧ r'.isOver := ⟨r, hi, hr⟩
  cases o with
  | call => exact ⟨r, by rw [step, List.getElem?_append_left (List.getElem?_eq_some_iff.1 hi).1, hi], hr⟩
  | lock j =>
    rw [step]
    split
    · rename_i hj _
      exact hset j _ _ hj id
    · exact hsame
  | read j =>
    rw [step]
    split
    · rename_i hj
      exact hset j _ _ hj (fun h => h.elim)
    · exact hsame
  | next j ok =>
    rw [step]
    split
    · rename_i w hj
      exact hset j _ _ hj (fun h => h.elim)
    · exact hsame
  | unlock j =>
    rw [step]
    split
    · rename_i start r' hj
      exact hset j _ _ hj (fun _ => trivial)
    · exact hsame
  | lose j =>
    rw [step]
    split
    · rename_i hj
      exact hset j _ .lost hj (fun _ => trivial)
    · rename_i hj
      exact hset j _ .lost hj (fun _ => trivial)
    · rename_i hj
      exact hset j _ .lost hj (fun _ => trivial)
    · rename_i hj
      exact hset j _ .lost hj (fun _ => trivial)
    · exact hsame

theorem run_over {i : ℕ} {r : Run} (hi : s.runs[i]? = some r) (hr : r.isOver) (ops : List Op) :
    ∃ r', (run dir s ops).runs[i]? = some r' ∧ r'.isOver :=
  Runs.run_inv (step dir) (fun s => ∃ r', s.runs[i]? = some r' ∧ r'.isOver)
    (fun _ o ⟨_, hi, hr⟩ => step_over hi hr o) ops ⟨r, hi, hr⟩

/-- script `f` of run `i` fails: what is recorded stays as it was and does not include it, everything recorded was there
when the run began, is an adopted baseline, or was recorded by a script of an earlier name, and the run is over -/
structure FailsClean (dir : Versions) (squashes : Squashes) (start : Finset String) (i : ℕ) (f : String) (s s' : St) : Prop where
  table_eq : s'.table = s.table
  committed_eq : s'.committed = s.committed
  unrecorded : stem f ∉ s'.table
  earlier : ∀ g ∈ s'.committed, g < f
  recorded : ∀ v ∈ s'.table, v ∈ start ∨ (∃ e ∈ squashes.entries, v = e.1) ∨
    ∃ g ∈ s'.committed, v = stem g ∨ v ∈ squashes.getD (stem g) []
  ends : ∀ ops w, (run dir s' ops).runs[i]? ≠ some (.working w)

theorem fails_clean (h : Inv dir squashes initial s) {i : ℕ} {w : Work} (hi : s.runs[i]? = some (.working w))
    (hw : w.baselines = []) {f : String} {rest : List String} (hf : w.files = f :: rest) (hnew : stem f ∉ w.applied)
    (hactive : ¬ Superseded squashes (stem f)) :
    FailsClean dir squashes w.start i f s (step dir s (.next i false)) := by
  obtain ⟨n, passed, scripts, hworking⟩ := h.right i _ hi
  have hturn : turn false w = .stop (.error (.pg .operational)) := by
    rw [turn_file false hw hf]
    rcases applyFile_cases false f { w with files := rest } with ⟨-, hskip⟩ | ⟨-, -, ⟨hfalse, -⟩ | ⟨-, hturn⟩⟩
    · rw [hworking.squashes_eq] at hskip
      exact absurd hskip (not_or.2 ⟨hnew, hactive⟩)
    · cases hfalse
    · exact hturn
  have hstep : step dir s (.next i false) =
      { s with runs := s.runs.set i (.leaving w.start (.error (.pg .operational))) } := by
    simp [step, hi, hturn, Turn.versions, Turn.scripts, Turn.run]
  have hdue : Due dir squashes s.table f := by
    rw [hworking.synced] at hnew
    exact hworking.due hf hnew hactive
  rw [hstep]
  refine ⟨rfl, rfl, hdue.new, h.log.lt_due hdue, ?_, ?_⟩
  · intro v hv
    rcases (hworking.holds v).1 hv with hknown | ⟨g, hg, -, -, hgv⟩
    · cases hknown with
      | recorded hstart => exact .inl hstart
      | adopted he _ _ _ => exact .inr (.inl ⟨_, mem_of_getElem? he, rfl⟩)
    · exact .inr (.inr ⟨g, hworking.own g hg, hgv⟩)
  · intro ops w' hrun
    have hleaving : ({ s with runs := s.runs.set i (.leaving w.start (.error (.pg .operational))) } : St).runs[i]? =
        some (.leaving w.start (.error (.pg .operational))) := getElem?_set_own _ hi
    obtain ⟨r', hr', hover⟩ := run_over hleaving trivial ops
    rw [hrun] at hr'
    obtain rfl := Option.some.inj hr'
    exact hover

/-- **Applied once, in order.** And stable after a run that succeeded exactly when the history it found was settled. -/
theorem migrations_applied (hsquashes : discoverSquashes dir = .ok squashes) (initial : Finset String) (ops : List Op) :
    (run dir (fresh initial) ops).committed.Pairwise (fun f g => f < g) ∧
      (∀ f ∈ (run dir (fresh initial) ops).committed, stem f ∉ initial ∧ stem f ∈ (run dir (fresh initial) ops).table) ∧
      (∀ i w f rest, (run dir (fresh initial) ops).runs[i]? = some (.working w) → w.baselines = [] → w.files = f :: rest →
        stem f ∉ w.applied → ¬ Superseded squashes (stem f) →
        FailsClean dir squashes w.start i f (run dir (fresh initial) ops) (step dir (run dir (fresh initial) ops) (.next i false))) ∧
      ∀ i start newly, (run dir (fresh initial) ops).runs[i]? = some (.leaving start (.ok newly)) →
        (Stable dir (step dir (run dir (fresh initial) ops) (.unlock i)) ↔ Settled squashes start) := by
  have h := run_inv hsquashes initial ops
  refine ⟨h.log.ordered, fun f hf => ⟨h.log.new f hf, h.log.recorded f hf⟩, ?_, ?_⟩
  · intro i w f rest hi hw hf hnew hactive
    exact fails_clean h hi hw hf hnew hactive
  · intro i start newly hi
    have hfinished : Finished dir squashes start (run dir (fresh initial) ops).table := h.right i _ hi
    have hnobody := h.others hi trivial
    generalize run dir (fresh initial) ops = s at hi hfinished hnobody
    have hstep : step dir s (.unlock i) = { s with holder := none, runs := s.runs.set i (.ended start (.ok newly)) } := by
      simp [step, hi]
    rw [hstep, stable_iff_idle hsquashes rfl, hfinished.idle_iff (discoverSquashes_accepted hsquashes)]
    intro j r hj
    rcases Locks.getElem?_set_cases hj with ⟨rfl, rfl⟩ | ⟨hne, hj⟩
    · exact id
    · exact hnobody j r hne hj

end Applied

/-- what a run about to unlock has applied -/
def Run.applied : Run → Option (List String)
  | .leaving _ (.ok newly) => some newly
  | _ => none

/-- the text of the error a run ended with -/
def Run.refusal : Run → Option String
  | .ended _ (.error (.runtimeError msg)) => some msg
  | _ => none

theorem Run.of_applied {o : Option Run} {newly : List String} (h : o.bind Run.applied = some newly) :
    ∃ start, o = some (.leaving start (.ok newly)) := by
  obtain ⟨r, rfl, hr⟩ := Option.bind_eq_some_iff.1 h
  unfold Run.applied at hr
  split at hr
  · obtain rfl := Option.some.inj hr
    exact ⟨_, rfl⟩
  · cases hr

theorem Run.of_refusal {o : Option Run} {msg : String} (h : o.bind Run.refusal = some msg) :
    ∃ start, o = some (.ended start (.error (.runtimeError msg))) := by
  obtain ⟨r, rfl, hr⟩ := Option.bind_eq_some_iff.1 h
  unfold Run.refusal at hr
  split at hr
  · obtain rfl := Option.some.inj hr
    exact ⟨_, rfl⟩
  · cases hr

def flat : Versions where
  sqlFiles := ["103_link.sql", "102_base.sql"]
  manifests := [("102_base.replaces", "001_first\n002_second\n")]
  sql_nodup := by decide
  sql_suffix := by decide
  manifests_nodup := by decide
  manifests_suffix := by decide

/-- a first run by itself, up to its unlock -/
def firstRun : List Op := [.call, .lock 0, .read 0] ++ List.replicate 6 (.next 0 true)

theorem migrations_applied_sample : Stable flat (step flat (run flat (fresh ∅) firstRun) (.unlock 0)) := by
  have hread : (discoverSquashes flat).toOption.map Dict.entries = some [("102_base", ["001_first", "002_second"])] := by
    decide +kernel
  have happlied : (run flat (fresh ∅) firstRun).runs[0]?.bind Run.applied = some ["102_base", "103_link"] := by
    decide +kernel
  obtain ⟨start, hleaving⟩ := Run.of_applied happlied
  cases hsquashes : discoverSquashes flat with
  | error e =>
    rw [hsquashes] at hread
    cases hread
  | ok squashes =>
    rw [hsquashes] at hread
    have hentries : squashes.entries = [("102_base", ["001_first", "002_second"])] := Option.some.inj hread
    have h := migrations_applied hsquashes ∅ firstRun
    apply (h.2.2.2 0 start _ hleaving).2
    apply settled_of_flat
    simp [Superseded, hentries]

/-! ## A baseline in a later baseline's manifest -/

def chained : Versions where
  sqlFiles := ["003_base.sql", "001_first.sql", "002_base.sql"]
  manifests := [("002_base.replaces", "001_first\n"), ("003_base.replaces", "# the baseline before\n002_base\n")]
  sql_nodup := by decide
  sql_suffix := by decide
  manifests_nodup := by decide
  manifests_suffix := by decide

/-- **What the first run recorded the second one refuses.** -/
theorem migrations_unstable :
    (run chained (fresh ∅) firstRun).runs[0]?.bind Run.applied = some ["003_base"] ∧
      (run chained (fresh ∅) (firstRun ++ .unlock 0 :: solo 1 6)).runs[1]?.bind Run.refusal =
        some "Squash baseline 002_base is applied with incomplete replacement history" ∧
      ¬ Stable chained (step chained (run chained (fresh ∅) firstRun) (.unlock 0)) := by
  have hrefused : (run chained (fresh ∅) (firstRun ++ .unlock 0 :: solo 1 6)).runs[1]?.bind Run.refusal =
      some "Squash baseline 002_base is applied with incomplete replacement history" := by decide +kernel
  refine ⟨by decide +kernel, hrefused, ?_⟩
  rintro ⟨-, hstable⟩
  obtain ⟨start, hended⟩ := Run.of_refusal hrefused
  rw [run_append, run_cons] at hended
  have hcount : (step chained (run chained (fresh ∅) firstRun) (.unlock 0)).runs.length ≤ 1 := by decide +kernel
  have hok := (hstable (solo 1 6)).2.2 1 start _ hcount hended
  cases hok

end Teardrop.Migrations
