/-
`apply_pending` of `migrations/runner.py`: calls from any number of processes, each on a database session of its own,
that bring the database up to the versions directory one after another under an advisory lock.

A run walks the squash baselines (one whose replaced versions are all recorded is recorded without running its script) and
then the scripts in the order of their file names; every script runs in a transaction with the rows that record it. One
operation is one item of these loops. An item's transaction may fail (`next i false`), and a session may be lost at any point
(`lose i`), before or after a commit. `committed` lists the scripts whose transactions committed.
-/
import Teardrop.Core.Locks
import Teardrop.Core.Runs
import Teardrop.Migrations.Squash

namespace Teardrop.Migrations

open Py List

/-! ## One item of a run -/

/-- a run between two items: what `_get_applied` returned, the set `applied` since, what is still to be looked at, and
`newly_applied` -/
structure Work where
  start : Finset String
  applied : Finset String
  squashes : Squashes
  baselines : List (String × List String)
  files : List String
  newly : List String

/-- what an item comes to: nothing, a transaction that records versions and may have run a script, or the end -/
inductive Turn where
  | skip (w : Work)
  | commit (versions : List String) (script : Option String) (w : Work)
  | stop (r : Call (List String))

/-- a baseline of the first loop -/
def adopt (ok : Bool) (baseline : String) (replaced : List String) (w : Work) : Turn :=
  let missing := replaced.filter (fun v => v ∉ w.applied)
  let present := replaced.filter (fun v => v ∈ w.applied)
  if baseline ∈ w.applied then
    if missing ≠ [] then
      .stop (.error (.runtimeError s!"Squash baseline {baseline} is applied with incomplete replacement history"))
    else .skip w
  else if present = [] then .skip w
  else match missing with
    | first :: _ =>
      .stop (.error (.runtimeError s!"Partially applied migration history before {baseline}; missing replacement {first}"))
    | [] =>
      if ok then
        .commit [baseline] none { w with applied := w.applied ∪ [baseline].toFinset, newly := w.newly ++ [baseline] }
      else .stop (.error (.pg .operational))

/-- a script of the second loop -/
def applyFile (ok : Bool) (file : String) (w : Work) : Turn :=
  let version := stem file
  if version ∈ w.applied ∨ Superseded w.squashes version then .skip w
  else
    let versions := version :: w.squashes.getD version []
    if ok then
      .commit versions (some file) { w with applied := w.applied ∪ versions.toFinset, newly := w.newly ++ [version] }
    else .stop (.error (.pg .operational))

def turn (ok : Bool) (w : Work) : Turn :=
  match w.baselines with
  | item :: baselines => adopt ok item.1 item.2 { w with baselines := baselines }
  | [] => match w.files with
    | file :: files => applyFile ok file { w with files := files }
    | [] => .stop (.ok w.newly)

/-! ## The runs -/

/-- a call of `apply_pending`: waiting for the lock, holding it, between two items, about to unlock, or over -/
inductive Run where
  | waiting
  | locked
  | working (w : Work)
  | leaving (start : Finset String) (r : Call (List String))
  | ended (start : Finset String) (r : Call (List String))
  | lost

def Run.active : Run → Prop
  | .locked | .working _ | .leaving _ _ => True
  | _ => False

/-- `_migrations`, the scripts committed, who holds the lock, and the calls so far -/
structure St where
  table : Finset String
  committed : List String
  holder : Option ℕ
  runs : List Run

def fresh (table : Finset String) : St := ⟨table, [], none, []⟩

inductive Op where
  | call
  | lock (i : ℕ)
  | read (i : ℕ)
  | next (i : ℕ) (ok : Bool)
  | unlock (i : ℕ)
  | lose (i : ℕ)

def Turn.versions : Turn → List String
  | .commit versions _ _ => versions
  | _ => []

def Turn.scripts : Turn → List String
  | .commit _ script _ => script.toList
  | _ => []

def Turn.run (start : Finset String) : Turn → Run
  | .skip w | .commit _ _ w => .working w
  | .stop r => .leaving start r

/-- the directory is read after the table -/
def begin (dir : Versions) (table : Finset String) : Run :=
  match discoverSquashes dir with
  | .ok squashes => .working ⟨table, table, squashes, squashes.entries, discoverMigrations dir, []⟩
  | .error e => .leaving table (.error e)

theorem begin_ok {dir : Versions} {squashes : Squashes} (h : discoverSquashes dir = .ok squashes) (table : Finset String) :
    begin dir table = .working ⟨table, table, squashes, squashes.entries, discoverMigrations dir, []⟩ := by
  rw [begin, h]

def step (dir : Versions) (s : St) : Op → St
  | .call => { s with runs := s.runs ++ [.waiting] }
  | .lock i =>
    match s.runs[i]?, s.holder with
    | some .waiting, none => { s with holder := some i, runs := s.runs.set i .locked }
    | _, _ => s
  | .read i =>
    match s.runs[i]? with
    | some .locked => { s with runs := s.runs.set i (begin dir s.table) }
    | _ => s
  | .next i ok =>
    match s.runs[i]? with
    | some (.working w) =>
      { s with
        table := s.table ∪ (turn ok w).versions.toFinset
        committed := s.committed ++ (turn ok w).scripts
        runs := s.runs.set i ((turn ok w).run w.start) }
    | _ => s
  | .unlock i =>
    match s.runs[i]? with
    | some (.leaving start r) => { s with holder := none, runs := s.runs.set i (.ended start r) }
    | _ => s
  | .lose i =>
    match s.runs[i]? with
    | some .waiting => { s with runs := s.runs.set i .lost }
    | some .locked | some (.working _) | some (.leaving _ _) => { s with holder := none, runs := s.runs.set i .lost }
    | _ => s

def run (dir : Versions) : St → List Op → St := Runs.run (step dir)

@[simp] theorem run_nil (dir : Versions) (s : St) : run dir s [] = s := rfl

@[simp] theorem run_cons (dir : Versions) (s : St) (o : Op) (ops : List Op) :
    run dir s (o :: ops) = run dir (step dir s o) ops := rfl

theorem run_append (dir : Versions) (s : St) (ops ops' : List Op) : run dir s (ops ++ ops') = run dir (run dir s ops) ops' :=
  Runs.run_append (step dir) s ops ops'

/-! ## What one item does -/

variable (ok : Bool) {f : String} {rest : List String}

theorem adopt_cases (baseline : String) (replaced : List String) (w : Work) :
    (adopt ok baseline replaced w = .skip w ∧ ((baseline ∈ w.applied ∧ ∀ v ∈ replaced, v ∈ w.applied) ∨
        (baseline ∉ w.applied ∧ ∀ v ∈ replaced, v ∉ w.applied))) ∨
      (adopt ok baseline replaced w =
          .commit [baseline] none { w with applied := w.applied ∪ [baseline].toFinset, newly := w.newly ++ [baseline] } ∧
        baseline ∉ w.applied ∧ (∃ v ∈ replaced, v ∈ w.applied) ∧ ∀ v ∈ replaced, v ∈ w.applied) ∨
      ∃ e, adopt ok baseline replaced w = .stop (.error e) ∧ ((baseline ∈ w.applied ∧ ∃ v ∈ replaced, v ∉ w.applied) ∨
        (baseline ∉ w.applied ∧ ∃ v ∈ replaced, v ∈ w.applied)) := by
  by_cases hbaseline : baseline ∈ w.applied
  · by_cases hmissing : replaced.filter (fun v => v ∉ w.applied) = []
    · refine .inl ⟨by simp only [adopt, hbaseline, hmissing, if_true, ne_eq, not_true_eq_false, if_false], .inl ⟨hbaseline, ?_⟩⟩
      simpa using hmissing
    · refine .inr (.inr ?_)
      simp only [adopt, hbaseline, hmissing, if_true, ne_eq, not_false_eq_true]
      exact ⟨_, rfl, .inl ⟨trivial, by simpa using hmissing⟩⟩
  · by_cases hpresent : replaced.filter (fun v => v ∈ w.applied) = []
    · refine .inl ⟨by simp only [adopt, hbaseline, hpresent, if_true, if_false], .inr ⟨hbaseline, ?_⟩⟩
      simpa using hpresent
    · cases hmissing : replaced.filter (fun v => v ∉ w.applied) with
      | cons first rest =>
        refine .inr (.inr ?_)
        simp only [adopt, hbaseline, hpresent, hmissing, if_false]
        exact ⟨_, rfl, .inr ⟨not_false, by simpa using hpresent⟩⟩
      | nil =>
        cases ok with
        | false =>
          refine .inr (.inr ?_)
          simp only [adopt, hbaseline, hpresent, hmissing, if_false, Bool.false_eq_true]
          exact ⟨_, rfl, .inr ⟨not_false, by simpa using hpresent⟩⟩
        | true =>
          refine .inr (.inl ⟨by simp only [adopt, hbaseline, hpresent, hmissing, if_true, if_false], hbaseline, ?_, ?_⟩)
          · simpa using hpresent
          · simpa using hmissing

theorem applyFile_cases (file : String) (w : Work) :
    (applyFile ok file w = .skip w ∧ (stem file ∈ w.applied ∨ Superseded w.squashes (stem file))) ∨
      (stem file ∉ w.applied ∧ ¬ Superseded w.squashes (stem file) ∧
        ((ok = true ∧ applyFile ok file w = .commit (stem file :: w.squashes.getD (stem file) []) (some file) { w with
              applied := w.applied ∪ (stem file :: w.squashes.getD (stem file) []).toFinset
              newly := w.newly ++ [stem file] }) ∨
          (ok = false ∧ applyFile ok file w = .stop (.error (.pg .operational))))) := by
  by_cases hskip : stem file ∈ w.applied ∨ Superseded w.squashes (stem file)
  · exact .inl ⟨by simp only [applyFile, hskip, if_true], hskip⟩
  · obtain ⟨hnew, hactive⟩ := not_or.1 hskip
    refine .inr ⟨hnew, hactive, ?_⟩
    cases ok with
    | true => exact .inl ⟨rfl, by simp only [applyFile, hskip, if_true, if_false]⟩
    | false => exact .inr ⟨rfl, by simp only [applyFile, hskip, if_false, Bool.false_eq_true]⟩

theorem turn_cons {w : Work} {e : String × List String} {rest : List (String × List String)} (hw : w.baselines = e :: rest) :
    turn ok w = adopt ok e.1 e.2 { w with baselines := rest } := by
  unfold turn
  rw [hw]

theorem turn_file {w : Work} (hw : w.baselines = []) (hf : w.files = f :: rest) :
    turn ok w = applyFile ok f { w with files := rest } := by
  unfold turn
  rw [hw, hf]

theorem turn_end {w : Work} (hw : w.baselines = []) (hf : w.files = []) : turn ok w = .stop (.ok w.newly) := by
  unfold turn
  rw [hw, hf]

/-! ## A run against its table -/

/-- a run that has looked at `n` baselines and the scripts `passed`, and has itself run `scripts` -/
structure Working (dir : Versions) (squashes : Squashes) (table : Finset String) (committed : List String) (w : Work)
    (n : ℕ) (passed scripts : List String) : Prop where
  squashes_eq : w.squashes = squashes
  synced : w.applied = table
  looked : squashes.entries.drop n = w.baselines ∧ n ≤ squashes.entries.length
  consistent : Consistent squashes w.start n
  files : discoverMigrations dir = passed ++ w.files
  first : w.baselines ≠ [] → passed = [] ∧ scripts = []
  done : ∀ g ∈ passed, stem g ∈ table ∨ Superseded squashes (stem g)
  own : ∀ f ∈ scripts, f ∈ committed
  holds : ∀ v, v ∈ table ↔ Known squashes w.start n v ∨ Ran squashes w.start scripts v

section Working

variable {dir : Versions} {squashes : Squashes} {table : Finset String} {committed : List String} {w : Work} {n : ℕ}
  {passed scripts : List String}

theorem not_ran_nil {start : Finset String} {v : String} : ¬ Ran squashes start [] v := by
  rintro ⟨f, hf, -⟩
  exact not_mem_nil hf

/-- what is known grows by the baseline just looked at when something below it was recorded -/
theorem Working.baseline (h : Working dir squashes table committed w n passed scripts) {e : String × List String}
    {rest : List (String × List String)} (hw : w.baselines = e :: rest) (table' : Finset String) (newly : List String)
    (hall : (e.1 ∈ table ∨ ∃ v ∈ e.2, v ∈ table) → ∀ v ∈ e.2, v ∈ table)
    (htable : ∀ v, v ∈ table' ↔ v ∈ table ∨ (v = e.1 ∧ ∃ u ∈ e.2, u ∈ table)) :
    Working dir squashes table' committed { w with baselines := rest, applied := table', newly := newly } (n + 1) passed
      scripts := by
  obtain ⟨hpassed, hscripts⟩ := h.first (by rw [hw]; exact cons_ne_nil _ _)
  have hlooked := h.looked.1
  rw [hw] at hlooked
  have he : squashes.entries[n]? = some e := by
    rw [← head?_drop, hlooked, head?_cons]
  have hknown : ∀ v, v ∈ table ↔ Known squashes w.start n v := by
    intro v
    rw [h.holds v, hscripts]
    exact or_iff_left not_ran_nil
  subst hpassed hscripts
  constructor
  · exact h.squashes_eq
  · rfl
  · refine ⟨?_, (List.getElem?_eq_some_iff.1 he).1⟩
    rw [← tail_drop, hlooked, tail_cons]
  · refine h.consistent.succ he ?_
    simpa only [hknown] using hall
  · exact h.files
  · exact fun _ => ⟨rfl, rfl⟩
  · exact fun _ hg => (not_mem_nil hg).elim
  · exact h.own
  · intro v
    rw [htable v, known_succ he]
    simp [hknown, not_ran_nil]

theorem Working.all_known (h : Working dir squashes table committed w n passed scripts) (hw : w.baselines = []) :
    n = squashes.entries.length := by
  have hlooked := h.looked.1
  rw [hw, drop_eq_nil_iff] at hlooked
  exact le_antisymm h.looked.2 hlooked

/-- the script is next in order, and neither recorded nor superseded -/
structure Due (dir : Versions) (squashes : Squashes) (table : Finset String) (f : String) : Prop where
  listed : f ∈ discoverMigrations dir
  new : stem f ∉ table
  active : ¬ Superseded squashes (stem f)
  before : ∀ g ∈ discoverMigrations dir, g < f → stem g ∈ table ∨ Superseded squashes (stem g)

theorem Working.due (h : Working dir squashes table committed w n passed scripts) (hf : w.files = f :: rest)
    (hnew : stem f ∉ table) (hactive : ¬ Superseded squashes (stem f)) : Due dir squashes table f := by
  have hfiles := h.files
  rw [hf] at hfiles
  have hsorted := discoverMigrations_sorted dir
  rw [hfiles, pairwise_append, pairwise_cons] at hsorted
  refine ⟨by rw [hfiles]; exact mem_append_right _ mem_cons_self, hnew, hactive, ?_⟩
  intro g hg hlt
  rw [hfiles] at hg
  rcases mem_append.1 hg with hg | hg
  · exact h.done g hg
  · rcases mem_cons.1 hg with rfl | hg
    · exact absurd hlt (lt_irrefl _)
    · exact absurd (hsorted.2.1.1 g hg) (lt_asymm hlt)

theorem Working.skipped (h : Working dir squashes table committed w n passed scripts) (hw : w.baselines = [])
    (hf : w.files = f :: rest) (hskip : stem f ∈ table ∨ Superseded squashes (stem f)) :
    Working dir squashes table committed { w with files := rest } n (passed ++ [f]) scripts := by
  constructor
  · exact h.squashes_eq
  · exact h.synced
  · exact h.looked
  · exact h.consistent
  · rw [h.files, hf, append_assoc]
    rfl
  · exact fun hne => absurd hw hne
  · intro g hg
    rcases mem_append.1 hg with hg | hg
    · exact h.done g hg
    · rwa [mem_singleton.1 hg]
  · exact h.own
  · exact h.holds

theorem ran_snoc {start : Finset String} {v : String} (hunknown : ¬ Known squashes start squashes.entries.length (stem f))
    (hactive : ¬ Superseded squashes (stem f)) :
    Ran squashes start (scripts ++ [f]) v ↔ Ran squashes start scripts v ∨ v = stem f ∨ v ∈ squashes.getD (stem f) [] := by
  constructor
  · rintro ⟨g, hg, hran⟩
    rcases mem_append.1 hg with hg | hg
    · exact .inl ⟨g, hg, hran⟩
    · obtain rfl := mem_singleton.1 hg
      exact .inr hran.2.2
  · rintro (⟨g, hg, hran⟩ | hv)
    · exact ⟨g, mem_append_left _ hg, hran⟩
    · exact ⟨f, mem_append_right _ (mem_singleton_self f), hunknown, hactive, hv⟩

theorem Working.applied (h : Working dir squashes table committed w n passed scripts) (hw : w.baselines = [])
    (hf : w.files = f :: rest) (hnew : stem f ∉ table) (hactive : ¬ Superseded squashes (stem f)) (newly : List String) :
    Working dir squashes (table ∪ (stem f :: squashes.getD (stem f) []).toFinset) (committed ++ [f]) { w with
        applied := table ∪ (stem f :: squashes.getD (stem f) []).toFinset
        files := rest
        newly := newly } n (passed ++ [f]) (scripts ++ [f]) := by
  obtain rfl := h.all_known hw
  have hunknown : ¬ Known squashes w.start squashes.entries.length (stem f) := fun hknown => hnew ((h.holds _).2 (.inl hknown))
  constructor
  · exact h.squashes_eq
  · rfl
  · exact h.looked
  · exact h.consistent
  · rw [h.files, hf, append_assoc]
    rfl
  · exact fun hne => absurd hw hne
  · intro g hg
    rcases mem_append.1 hg with hg | hg
    · exact (h.done g hg).imp_left (fun hin => Finset.mem_union_left _ hin)
    · obtain rfl := mem_singleton.1 hg
      exact .inl (Finset.mem_union_right _ (by simp))
  · intro g hg
    rcases mem_append.1 hg with hg | hg
    · exact mem_append_left _ (h.own g hg)
    · exact mem_append_right _ hg
  · intro v
    rw [Finset.mem_union, h.holds v, ran_snoc hunknown hactive, or_assoc, mem_toFinset, mem_cons]

theorem Working.finished (h : Working dir squashes table committed w n passed scripts) (hw : w.baselines = [])
    (hf : w.files = []) : Finished dir squashes w.start table := by
  obtain rfl := h.all_known hw
  have hfiles := h.files
  rw [hf, append_nil] at hfiles
  refine ⟨h.consistent, ?_, scripts, h.holds⟩
  rw [hfiles]
  exact h.done

/-- what a turn leaves is right for the table it leaves -/
def Turn.Right (dir : Versions) (squashes : Squashes) (start table : Finset String) (committed : List String) : Turn → Prop
  | .skip w => w.start = start ∧ ∃ n passed scripts, Working dir squashes table committed w n passed scripts
  | .commit versions script w => w.start = start ∧ (∀ f, script = some f → stem f ∈ versions ∧ Due dir squashes table f) ∧
      ∃ n passed scripts, Working dir squashes (table ∪ versions.toFinset) (committed ++ script.toList) w n passed scripts
  | .stop (.ok _) => Finished dir squashes start table
  | .stop (.error _) => True

theorem Working.turn_right (h : Working dir squashes table committed w n passed scripts) (ok : Bool) :
    (turn ok w).Right dir squashes w.start table committed := by
  obtain ⟨start, applied, squashes', baselines, files, newly⟩ := w
  obtain rfl : squashes' = squashes := h.squashes_eq
  obtain rfl : applied = table := h.synced
  cases baselines with
  | cons e rest =>
    rcases adopt_cases ok e.1 e.2 ⟨start, applied, squashes', rest, files, newly⟩ with
      ⟨hturn, hcase⟩ | ⟨hturn, hout, hsome, hall⟩ | ⟨err, hturn, -⟩
    · rw [turn_cons ok rfl, hturn]
      refine ⟨rfl, n + 1, passed, scripts, h.baseline rfl applied newly ?_ ?_⟩
      · rcases hcase with ⟨-, hall⟩ | ⟨hout, hnone⟩
        · exact fun _ => hall
        · rintro (hin | ⟨v, hv, hin⟩)
          · exact absurd hin hout
          · exact absurd hin (hnone v hv)
      · intro v
        rcases hcase with ⟨hin, -⟩ | ⟨-, hnone⟩
        · refine ⟨.inl, ?_⟩
          rintro (hv | ⟨rfl, -⟩)
          · exact hv
          · exact hin
        · refine ⟨.inl, ?_⟩
          rintro (hv | ⟨-, u, hu, hin⟩)
          · exact hv
          · exact absurd hin (hnone u hu)
    · rw [turn_cons ok rfl, hturn]
      refine ⟨rfl, fun f hf => (Option.some_ne_none f hf.symm).elim, n + 1, passed, scripts, ?_⟩
      rw [Option.toList_none, append_nil]
      refine h.baseline rfl _ _ (fun _ => hall) ?_
      intro v
      simp only [Finset.mem_union, toFinset_cons, toFinset_nil, insert_empty_eq, Finset.mem_singleton]
      exact or_congr_right ⟨fun hv => ⟨hv, hsome⟩, And.left⟩
    · rw [turn_cons ok rfl, hturn]
      trivial
  | nil =>
    cases files with
    | nil =>
      exact h.finished rfl rfl
    | cons f rest =>
      rcases applyFile_cases ok f ⟨start, applied, squashes', [], rest, newly⟩ with
        ⟨hturn, hskip⟩ | ⟨hnew, hactive, ⟨-, hturn⟩ | ⟨-, hturn⟩⟩
      · rw [turn_file ok rfl rfl, hturn]
        exact ⟨rfl, n, passed ++ [f], scripts, h.skipped rfl rfl hskip⟩
      · rw [turn_file ok rfl rfl, hturn]
        refine ⟨rfl, ?_, n, passed ++ [f], scripts ++ [f], h.applied rfl rfl hnew hactive _⟩
        intro g hg
        obtain rfl := Option.some.inj hg
        exact ⟨mem_cons_self, h.due rfl hnew hactive⟩
      · rw [turn_file ok rfl rfl, hturn]
        trivial

end Working

/-! ## All runs -/

/-- what the table and the scripts committed say about each other and about the table at the beginning -/
structure Log (dir : Versions) (squashes : Squashes) (initial table : Finset String) (committed : List String) : Prop where
  ordered : committed.Pairwise (fun f g => f < g)
  recorded : ∀ f ∈ committed, stem f ∈ table
  before : ∀ f ∈ committed, ∀ g ∈ discoverMigrations dir, g < f → stem g ∈ table ∨ Superseded squashes (stem g)
  kept : initial ⊆ table
  new : ∀ f ∈ committed, stem f ∉ initial

section Log

variable {dir : Versions} {squashes : Squashes} {initial table : Finset String} {committed : List String}

theorem Log.lt_due (h : Log dir squashes initial table committed) (hf : Due dir squashes table f) :
    ∀ g ∈ committed, g < f := by
  intro g hg
  rcases lt_trichotomy g f with hlt | rfl | hlt
  · exact hlt
  · exact absurd (h.recorded g hg) hf.new
  · rcases h.before g hg f hf.listed hlt with hin | hsup
    · exact absurd hin hf.new
    · exact absurd hsup hf.active

theorem Log.more (h : Log dir squashes initial table committed) (versions : List String) :
    Log dir squashes initial (table ∪ versions.toFinset) committed where
  ordered := h.ordered
  recorded := fun f hf => Finset.mem_union_left _ (h.recorded f hf)
  before := fun f hf g hg hlt => (h.before f hf g hg hlt).imp_left (fun hin => Finset.mem_union_left _ hin)
  kept := h.kept.trans Finset.subset_union_left
  new := h.new

theorem Log.run (h : Log dir squashes initial table committed) (hf : Due dir squashes table f) {versions : List String}
    (hversions : stem f ∈ versions) : Log dir squashes initial (table ∪ versions.toFinset) (committed ++ [f]) := by
  have hmore := h.more versions
  constructor
  · rw [pairwise_append]
    refine ⟨h.ordered, pairwise_singleton _ _, ?_⟩
    intro g hg g' hg'
    obtain rfl := mem_singleton.1 hg'
    exact h.lt_due hf g hg
  · intro g hg
    rcases mem_append.1 hg with hg | hg
    · exact hmore.recorded g hg
    · obtain rfl := mem_singleton.1 hg
      exact Finset.mem_union_right _ (mem_toFinset.2 hversions)
  · intro g hg g' hg' hlt
    rcases mem_append.1 hg with hg | hg
    · exact hmore.before g hg g' hg' hlt
    · obtain rfl := mem_singleton.1 hg
      exact (hf.before g' hg' hlt).imp_left (fun hin => Finset.mem_union_left _ hin)
  · exact hmore.kept
  · intro g hg
    rcases mem_append.1 hg with hg | hg
    · exact h.new g hg
    · obtain rfl := mem_singleton.1 hg
      exact fun hin => hf.new (h.kept hin)

theorem Log.turn (h : Log dir squashes initial table committed) {start : Finset String} {t : Turn}
    (ht : t.Right dir squashes start table committed) :
    Log dir squashes initial (table ∪ t.versions.toFinset) (committed ++ t.scripts) := by
  cases t with
  | skip _ | stop _ => simpa [Turn.versions, Turn.scripts] using h
  | commit versions script w =>
    cases script with
    | none => simpa [Turn.versions, Turn.scripts] using h.more versions
    | some f =>
      obtain ⟨-, hscript, -⟩ := ht
      obtain ⟨hversions, hdue⟩ := hscript f rfl
      exact h.run hdue hversions

end Log

/-- a run knows the table it holds the lock on -/
def Run.Right (dir : Versions) (squashes : Squashes) (table : Finset String) (committed : List String) : Run → Prop
  | .working w => ∃ n passed scripts, Working dir squashes table committed w n passed scripts
  | .leaving start (.ok _) => Finished dir squashes start table
  | _ => True

structure Inv (dir : Versions) (squashes : Squashes) (initial : Finset String) (s : St) : Prop where
  lock : ∀ (i : ℕ) (r : Run), s.runs[i]? = some r → r.active → s.holder = some i
  right : ∀ (i : ℕ) (r : Run), s.runs[i]? = some r → r.Right dir squashes s.table s.committed
  log : Log dir squashes initial s.table s.committed

section Inv

variable {dir : Versions} {squashes : Squashes} {initial table : Finset String} {committed : List String} {s : St}

theorem Run.right_of_inactive {r : Run} (h : ¬ r.active) : r.Right dir squashes table committed := by
  cases r with
  | working _ | leaving _ _ => exact absurd trivial h
  | _ => trivial

theorem Turn.run_right {t : Turn} {start : Finset String} (ht : t.Right dir squashes start table committed) :
    (t.run start).Right dir squashes (table ∪ t.versions.toFinset) (committed ++ t.scripts) := by
  have hsame : table ∪ [].toFinset = table := Finset.union_empty table
  have hnone : committed ++ [] = committed := append_nil committed
  cases t with
  | skip w =>
    simp only [Turn.versions, Turn.scripts, hsame, hnone]
    exact ht.2
  | commit versions script w => exact ht.2.2
  | stop r =>
    simp only [Turn.versions, Turn.scripts, hsame, hnone]
    cases r with
    | ok newly => exact ht
    | error e => trivial

theorem begin_right (hsquashes : discoverSquashes dir = .ok squashes) :
    (begin dir table).Right dir squashes table committed := by
  rw [begin_ok hsquashes]
  refine ⟨0, [], [], rfl, rfl, ⟨rfl, Nat.zero_le _⟩, Consistent.zero, rfl, fun _ => ⟨rfl, rfl⟩, ?_, ?_, ?_⟩
  · exact fun _ hg => (not_mem_nil hg).elim
  · exact fun _ hf => (not_mem_nil hf).elim
  · intro v
    rw [known_zero]
    exact (or_iff_left not_ran_nil).symm

theorem move_inv {i : ℕ} {b : Run}
    (hothers : ∀ (j : ℕ) (r : Run), j ≠ i → s.runs[j]? = some r → ¬ r.active) {holder : Option ℕ} (hlock : b.active → holder = some i)
    (hright : b.Right dir squashes table committed) (hlog : Log dir squashes initial table committed) :
    Inv dir squashes initial ⟨table, committed, holder, s.runs.set i b⟩ := by
  constructor
  · intro j r hj hr
    rcases Locks.getElem?_set_cases hj with ⟨rfl, rfl⟩ | ⟨hne, hj⟩
    · exact hlock hr
    · exact absurd hr (hothers j r hne hj)
  · intro j r hj
    rcases Locks.getElem?_set_cases hj with ⟨rfl, rfl⟩ | ⟨hne, hj⟩
    · exact hright
    · exact Run.right_of_inactive (hothers j r hne hj)
  · exact hlog

theorem Inv.others (h : Inv dir squashes initial s) {i : ℕ} {a : Run} (hi : s.runs[i]? = some a) (ha : a.active) :
    ∀ (j : ℕ) (r : Run), j ≠ i → s.runs[j]? = some r → ¬ r.active := by
  intro j r hne hj hr
  have hboth := h.lock j r hj hr
  rw [h.lock i a hi ha] at hboth
  exact hne (Option.some.inj hboth).symm

theorem step_inv (hsquashes : discoverSquashes dir = .ok squashes) (h : Inv dir squashes initial s) (o : Op) :
    Inv dir squashes initial (step dir s o) := by
  cases o with
  | call =>
    have hcases : ∀ (i : ℕ) (r : Run), (s.runs ++ [Run.waiting])[i]? = some r → s.runs[i]? = some r ∨ r = .waiting := by
      intro i r hi
      rw [getElem?_append] at hi
      split_ifs at hi with hlt
      · exact .inl hi
      · exact .inr (mem_singleton.1 (mem_of_getElem? hi))
    constructor
    · intro i r hi hr
      rcases hcases i r hi with hi | rfl
      · exact h.lock i r hi hr
      · exact hr.elim
    · intro i r hi
      rcases hcases i r hi with hi | rfl
      · exact h.right i r hi
      · trivial
    · exact h.log
  | lock i =>
    rw [step]
    split
    · rename_i hi hfree
      have hnobody : ∀ (j : ℕ) (r : Run), j ≠ i → s.runs[j]? = some r → ¬ r.active := by
        intro j r _ hj hr
        rw [h.lock j r hj hr] at hfree
        cases hfree
      have hright : Run.locked.Right dir squashes s.table s.committed := trivial
      exact move_inv hnobody (fun _ => rfl) hright h.log
    · exact h
  | read i =>
    rw [step]
    split
    · rename_i hi
      exact move_inv (h.others hi trivial) (fun _ => h.lock i _ hi trivial) (begin_right hsquashes) h.log
    · exact h
  | next i ok =>
    rw [step]
    split
    · rename_i w hi
      obtain ⟨n, passed, scripts, hw⟩ := h.right i _ hi
      have hturn := hw.turn_right ok
      exact move_inv (h.others hi trivial) (fun _ => h.lock i _ hi trivial) (Turn.run_right hturn) (h.log.turn hturn)
    · exact h
  | unlock i =>
    rw [step]
    split
    · rename_i start r hi
      exact move_inv (h.others hi trivial) (fun hr => hr.elim) (Run.right_of_inactive id) h.log
    · exact h
  | lose i =>
    rw [step]
    split
    · constructor
      · intro j r hj hr
        rcases Locks.getElem?_set_cases hj with ⟨rfl, rfl⟩ | ⟨-, hj⟩
        · exact hr.elim
        · exact h.lock j r hj hr
      · intro j r hj
        rcases Locks.getElem?_set_cases hj with ⟨rfl, rfl⟩ | ⟨-, hj⟩
        · trivial
        · exact h.right j r hj
      · exact h.log
    · rename_i hi
      exact move_inv (h.others hi trivial) (fun hr => hr.elim) (Run.right_of_inactive id) h.log
    · rename_i hi
      exact move_inv (h.others hi trivial) (fun hr => hr.elim) (Run.right_of_inactive id) h.log
    · rename_i hi
      exact move_inv (h.others hi trivial) (fun hr => hr.elim) (Run.right_of_inactive id) h.log
    · exact h

theorem run_inv (hsquashes : discoverSquashes dir = .ok squashes) (initial : Finset String) (ops : List Op) :
    Inv dir squashes initial (run dir (fresh initial) ops) := by
  refine Runs.run_inv (step dir) (Inv dir squashes initial) (fun s o h => step_inv hsquashes h o) ops ?_
  constructor
  · intro i r hi
    simp [fresh] at hi
  · intro i r hi
    simp [fresh] at hi
  · exact ⟨List.Pairwise.nil, by simp [fresh], by simp [fresh], Finset.Subset.refl _, by simp [fresh]⟩

end Inv

end Teardrop.Migrations
