/-
What a database's records say through the squash manifests. `Known n v`: version `v` is recorded, or is a baseline among
the first `n` whose manifest names a version that was known before its turn.

A run that reaches its end leaves the table it found, the known baselines, and what the scripts it ran recorded: each
its own version and the versions that one replaces (`Finished`). On such a table a further run has nothing to do (`Idle`)
exactly when the records found at the start were `Settled`.
-/
import Mathlib
import Teardrop.Migrations.Versions

namespace Teardrop.Migrations

def Superseded (squashes : Squashes) (version : String) : Prop := ∃ e ∈ squashes.entries, version ∈ e.2

instance (squashes : Squashes) (version : String) : Decidable (Superseded squashes version) :=
  inferInstanceAs (Decidable (∃ e ∈ squashes.entries, version ∈ e.2))

/-! ## Known versions -/

inductive Known (squashes : Squashes) (start : Finset String) : ℕ → String → Prop where
  | recorded {n : ℕ} {v : String} : v ∈ start → Known squashes start n v
  | adopted {m n : ℕ} {e : String × List String} {v : String} :
      squashes.entries[m]? = some e → m < n → v ∈ e.2 → Known squashes start m v → Known squashes start n e.1

section Known

variable {squashes : Squashes} {start : Finset String} {m n : ℕ} {v : String} {e : String × List String}

theorem known_zero : Known squashes start 0 v ↔ v ∈ start := by
  constructor
  · intro h
    cases h with
    | recorded hv => exact hv
    | adopted _ hlt => exact absurd hlt (Nat.not_lt_zero _)
  · exact Known.recorded

theorem Known.mono (h : Known squashes start m v) (hmn : m ≤ n) : Known squashes start n v := by
  cases h with
  | recorded hv => exact .recorded hv
  | adopted he hlt hv hknown => exact .adopted he (lt_of_lt_of_le hlt hmn) hv hknown

theorem known_succ (he : squashes.entries[n]? = some e) :
    Known squashes start (n + 1) v ↔ Known squashes start n v ∨ (v = e.1 ∧ ∃ w ∈ e.2, Known squashes start n w) := by
  constructor
  · intro h
    cases h with
    | recorded hv => exact .inl (.recorded hv)
    | @adopted m _ e' w hm hlt hw hknown =>
      rcases Nat.lt_succ_iff_lt_or_eq.1 hlt with hlt | rfl
      · exact .inl (.adopted hm hlt hw hknown)
      · obtain rfl : e' = e := Option.some.inj (hm.symm.trans he)
        exact .inr ⟨rfl, w, hw, hknown⟩
  · intro h
    rcases h with h | ⟨rfl, w, hw, hknown⟩
    · exact h.mono (Nat.le_succ n)
    · exact .adopted he (Nat.lt_succ_self n) hw hknown

/-- at the turn of each of the first `n` baselines: if it or a version it replaces is known, so are all of them -/
def Consistent (squashes : Squashes) (start : Finset String) (n : ℕ) : Prop :=
  ∀ m < n, ∀ e, squashes.entries[m]? = some e → (Known squashes start m e.1 ∨ ∃ v ∈ e.2, Known squashes start m v) →
    ∀ v ∈ e.2, Known squashes start m v

theorem Consistent.zero : Consistent squashes start 0 := fun _ hlt => absurd hlt (Nat.not_lt_zero _)

theorem Consistent.succ (h : Consistent squashes start n) (he : squashes.entries[n]? = some e)
    (hall : (Known squashes start n e.1 ∨ ∃ v ∈ e.2, Known squashes start n v) → ∀ v ∈ e.2, Known squashes start n v) :
    Consistent squashes start (n + 1) := by
  intro m hm e' he' hsome
  rcases Nat.lt_succ_iff_lt_or_eq.1 hm with hlt | rfl
  · exact h m hlt e' he' hsome
  · obtain rfl : e = e' := Option.some.inj (he.symm.trans he')
    exact hall hsome

theorem Consistent.complete (h : Consistent squashes start squashes.entries.length) (he : e ∈ squashes.entries)
    (hknown : Known squashes start squashes.entries.length e.1) :
    ∀ v ∈ e.2, Known squashes start squashes.entries.length v := by
  intro v hv
  obtain ⟨k, hk⟩ := List.mem_iff_getElem?.1 he
  have hlt : k < squashes.entries.length := (List.getElem?_eq_some_iff.1 hk).1
  generalize hb : e.1 = b at hknown
  cases hknown with
  | recorded hstart =>
    have hturn : Known squashes start k e.1 := by
      rw [hb]
      exact .recorded hstart
    exact (h k hlt e hk (.inl hturn) v hv).mono hlt.le
  | @adopted m _ e' w hm hmlt hw hbelow =>
    have hsame : e' = e := List.inj_on_of_nodup_map squashes.nodup (List.mem_of_getElem? hm) he hb.symm
    rw [hsame] at hm hw
    exact (h m hmlt e hm (.inr ⟨w, hw, hbelow⟩) v hv).mono hmlt.le

end Known

/-! ## The end of a run -/

/-- nothing to do: every baseline is complete or untouched, and every script is recorded or superseded -/
def Idle (dir : Versions) (squashes : Squashes) (table : Finset String) : Prop :=
  (∀ e ∈ squashes.entries, (e.1 ∈ table → ∀ v ∈ e.2, v ∈ table) ∧ (e.1 ∉ table → ∀ v ∈ e.2, v ∉ table)) ∧
    ∀ f ∈ discoverMigrations dir, stem f ∈ table ∨ Superseded squashes (stem f)

/-- what the scripts recorded of which the database knew nothing -/
def Ran (squashes : Squashes) (start : Finset String) (scripts : List String) (v : String) : Prop :=
  ∃ f ∈ scripts, ¬ Known squashes start squashes.entries.length (stem f) ∧ ¬ Superseded squashes (stem f) ∧
    (v = stem f ∨ v ∈ squashes.getD (stem f) [])

structure Finished (dir : Versions) (squashes : Squashes) (start table : Finset String) : Prop where
  consistent : Consistent squashes start squashes.entries.length
  files : ∀ f ∈ discoverMigrations dir, stem f ∈ table ∨ Superseded squashes (stem f)
  ran : ∃ scripts, ∀ v, v ∈ table ↔ Known squashes start squashes.entries.length v ∨ Ran squashes start scripts v

/-- an unknown baseline `e` that the manifest `c` names: where `c` is active everything `e` replaces is known, and where
`c` is superseded nothing of it is -/
def Settled (squashes : Squashes) (start : Finset String) : Prop :=
  ∀ e ∈ squashes.entries, ∀ c ∈ squashes.entries, e.1 ∈ c.2 → ¬ Known squashes start squashes.entries.length e.1 →
    (¬ Superseded squashes c.1 → ∀ v ∈ e.2, Known squashes start squashes.entries.length v) ∧
      (Superseded squashes c.1 → ∀ v ∈ e.2, ¬ Known squashes start squashes.entries.length v)

section Finished

variable {dir : Versions} {squashes : Squashes} {start table : Finset String} {scripts : List String} {v : String}

theorem Accepted.getD_eq {e : String × List String} (he : e ∈ squashes.entries) : squashes.getD e.1 [] = e.2 := by
  rw [Dict.getD, Dict.get?_eq_some_iff.2 he, Option.getD_some]

theorem mem_getD {baseline : String} (h : v ∈ squashes.getD baseline []) :
    (baseline, squashes.getD baseline []) ∈ squashes.entries := by
  rw [Dict.getD] at h ⊢
  cases hget : squashes.get? baseline with
  | none =>
    rw [hget] at h
    exact (List.not_mem_nil h).elim
  | some replaced =>
    exact Dict.get?_eq_some_iff.1 hget

theorem Accepted.not_ran (hdir : Accepted dir squashes) {e : String × List String} (he : e ∈ squashes.entries)
    (hsuper : Superseded squashes e.1) (hv : v ∈ e.2) : ¬ Ran squashes start scripts v := by
  rintro ⟨f, -, -, hactive, rfl | hreplaced⟩
  · exact hactive ⟨e, he, hv⟩
  · have hsame := hdir.apart e he _ (mem_getD hreplaced) v hv hreplaced
    rw [hsame] at hsuper
    exact hactive hsuper

/-- an active baseline the database knew nothing of was run, and recorded what it replaces -/
theorem Finished.run_recorded (hdir : Accepted dir squashes) (h : Finished dir squashes start table)
    {c : String × List String} (hc : c ∈ squashes.entries) (hactive : ¬ Superseded squashes c.1)
    (hunknown : ¬ Known squashes start squashes.entries.length c.1) (hv : v ∈ c.2) : v ∈ table := by
  obtain ⟨-, hfiles, scripts, htable⟩ := h
  obtain ⟨f, hf, hstem⟩ := hdir.script c hc
  have hrecorded : c.1 ∈ table := by
    rw [← hstem] at hactive ⊢
    exact (hfiles f hf).resolve_right hactive
  obtain ⟨g, hg, hgunknown, hgactive, hgc⟩ := ((htable c.1).1 hrecorded).resolve_left hunknown
  have hself : c.1 = stem g := by
    rcases hgc with hgc | hgc
    · exact hgc
    · exact absurd ⟨_, mem_getD hgc, hgc⟩ hactive
  apply (htable v).2
  refine .inr ⟨g, hg, hgunknown, hgactive, .inr ?_⟩
  rw [← hself, Accepted.getD_eq hc]
  exact hv

/-- **Idle exactly when settled.** -/
theorem Finished.idle_iff (hdir : Accepted dir squashes) (h : Finished dir squashes start table) :
    Idle dir squashes table ↔ Settled squashes start := by
  have hrun : ∀ c ∈ squashes.entries, ¬ Superseded squashes c.1 → ¬ Known squashes start squashes.entries.length c.1 →
      ∀ v ∈ c.2, v ∈ table := fun c hc hactive hunknown v hv => h.run_recorded hdir hc hactive hunknown hv
  obtain ⟨hconsistent, hfiles, scripts, htable⟩ := h
  constructor
  · rintro ⟨hbaselines, -⟩ e he c hc hec hunknown
    have hsuper : Superseded squashes e.1 := ⟨c, hc, hec⟩
    constructor
    · intro hactive v hv
      have hcunknown : ¬ Known squashes start squashes.entries.length c.1 :=
        fun hknown => hunknown (hconsistent.complete hc hknown e.1 hec)
      have hrecorded : e.1 ∈ table := hrun c hc hactive hcunknown e.1 hec
      exact ((htable v).1 ((hbaselines e he).1 hrecorded v hv)).resolve_right (hdir.not_ran he hsuper hv)
    · intro hcsuper v hv hknown
      have hout : e.1 ∉ table := by
        intro hin
        exact hdir.not_ran hc hcsuper hec (((htable e.1).1 hin).resolve_left hunknown)
      exact (hbaselines e he).2 hout v hv ((htable v).2 (.inl hknown))
  · intro hsettled
    refine ⟨?_, hfiles⟩
    intro e he
    constructor
    · intro hin v hv
      by_cases hknown : Known squashes start squashes.entries.length e.1
      · exact (htable v).2 (.inl (hconsistent.complete he hknown v hv))
      · obtain ⟨f, hf, hunknown, hactive, hstem | hreplaced⟩ := ((htable e.1).1 hin).resolve_left hknown
        · refine (htable v).2 (.inr ⟨f, hf, hunknown, hactive, .inr ?_⟩)
          rw [← hstem, Accepted.getD_eq he]
          exact hv
        · exact (htable v).2 (.inl ((hsettled e he _ (mem_getD hreplaced) hreplaced hknown).1 hactive v hv))
    · intro hout v hv hin
      have hunknown : ¬ Known squashes start squashes.entries.length e.1 := fun hknown => hout ((htable e.1).2 (.inl hknown))
      -- `e` is superseded: its script would have run otherwise
      have hsuper : Superseded squashes e.1 := by
        obtain ⟨f, hf, hstem⟩ := hdir.script e he
        rw [← hstem] at hout ⊢
        exact (hfiles f hf).resolve_left hout
      have hvknown := ((htable v).1 hin).resolve_right (hdir.not_ran he hsuper hv)
      obtain ⟨c, hc, hec⟩ := hsuper
      by_cases hactive : Superseded squashes c.1
      · exact (hsettled e he c hc hec hunknown).2 hactive v hv hvknown
      · apply hout
        by_cases hcknown : Known squashes start squashes.entries.length c.1
        · exact absurd (hconsistent.complete hc hcknown e.1 hec) hunknown
        · exact hrun c hc hactive hcknown e.1 hec

end Finished

/-! ## Which histories are settled -/

section Settled

variable {dir : Versions} {squashes : Squashes} {start : Finset String}

theorem settled_of_flat (hflat : ∀ e ∈ squashes.entries, ¬ Superseded squashes e.1) : Settled squashes start := by
  intro e he c hc hec
  exact absurd ⟨c, hc, hec⟩ (hflat e he)

end Settled

end Teardrop.Migrations
