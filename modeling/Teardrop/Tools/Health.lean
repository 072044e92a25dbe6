/-
The circuit breaker of `tools/health.py`: a Redis counter of a tool's failures, which expires a window after the failure
that made it, and a flag that is set for a window when the counter reaches the threshold.

Instants are milliseconds of the Redis server's clock. Redis is there and answers.
-/
import Mathlib

namespace Teardrop.Health

/-- the settings, with the bounds their fields declare -/
structure Settings where
  toolBreakerEnabled : Bool
  toolBreakerThreshold : ℕ
  toolBreakerWindowSeconds : ℕ
  threshold_pos : 1 ≤ toolBreakerThreshold
  window_ge : 60 ≤ toolBreakerWindowSeconds

/-- the time to live of both keys -/
def Settings.window (cfg : Settings) : ℕ := cfg.toolBreakerWindowSeconds * 1000

/-- the keys of a tool: the counter and the flag, each with the instant at which it expires -/
structure Keys where
  fail : Option (ℕ × ℕ)
  trip : Option ℕ

def recordSuccess (cfg : Settings) (s : Keys) : Keys := if cfg.toolBreakerEnabled then { s with fail := none } else s

/-- the counter after `INCR`, and `EXPIRE` when it has just been made -/
def increment (cfg : Settings) (now : ℕ) (s : Keys) : ℕ × ℕ :=
  match s.fail with
  | some (n, expiresAt) => if now < expiresAt then (n + 1, expiresAt) else (1, now + cfg.window)
  | none => (1, now + cfg.window)

/-- `record_failure`: the keys, and whether the breaker trips -/
def recordFailure (cfg : Settings) (now : ℕ) (s : Keys) : Keys × Bool :=
  if cfg.toolBreakerEnabled then
    let counter := increment cfg now s
    if cfg.toolBreakerThreshold ≤ counter.1 then (⟨some counter, some (now + cfg.window)⟩, true)
    else ({ s with fail := some counter }, false)
  else (s, false)

def isBreakerTripped (cfg : Settings) (now : ℕ) (s : Keys) : Bool :=
  cfg.toolBreakerEnabled && match s.trip with
    | some expiresAt => now < expiresAt
    | none => false

/-! ## What a call does to the counter -/

/-- what one call does to the counter, all in all -/
inductive Tally where
  | nothing
  | clears
  | counts
  | restarts
deriving DecidableEq

/-- the call's records, at one instant -/
def tally (cfg : Settings) (now : ℕ) (s : Keys) : Tally → Keys
  | .nothing => s
  | .clears => recordSuccess cfg s
  | .counts => (recordFailure cfg now s).1
  | .restarts => (recordFailure cfg now (recordSuccess cfg s)).1

theorem window_pos (cfg : Settings) : 0 < cfg.window := by
  have h := cfg.window_ge
  unfold Settings.window
  omega

variable {cfg : Settings} (hon : cfg.toolBreakerEnabled = true)

include hon in
theorem recordFailure_fail (now : ℕ) (s : Keys) : (recordFailure cfg now s).1.fail = some (increment cfg now s) := by
  rw [recordFailure, if_pos hon]
  dsimp only
  split_ifs <;> rfl

theorem increment_live {now n expiresAt : ℕ} {s : Keys} (h : s.fail = some (n, expiresAt)) (hlive : now < expiresAt) :
    increment cfg now s = (n + 1, expiresAt) := by
  rw [increment, h]
  exact if_pos hlive

theorem increment_pos (now : ℕ) (s : Keys) : 1 ≤ (increment cfg now s).1 := by
  unfold increment
  split
  · split_ifs
    · exact Nat.le_add_left 1 _
    · exact le_rfl
  · exact le_rfl

include hon in
theorem recordFailure_trips {now : ℕ} {s : Keys} (h : cfg.toolBreakerThreshold ≤ (increment cfg now s).1) :
    isBreakerTripped cfg now (recordFailure cfg now s).1 = true := by
  rw [recordFailure, if_pos hon]
  dsimp only
  rw [if_pos h, isBreakerTripped, hon, Bool.true_and]
  exact decide_eq_true (Nat.lt_add_of_pos_right (window_pos cfg))

include hon in
/-- a failure leaves a counter of at least one that lasts as long as the live one did, or for a window -/
theorem recordFailure_counter (now : ℕ) (s : Keys) : ∃ n expiresAt, (recordFailure cfg now s).1.fail = some (n, expiresAt) ∧
    1 ≤ n ∧ (expiresAt = now + cfg.window ∨ ∃ m, s.fail = some (m, expiresAt) ∧ now < expiresAt) := by
  rw [recordFailure_fail hon]
  unfold increment
  match hfail : s.fail with
  | none => exact ⟨1, now + cfg.window, rfl, le_rfl, .inl rfl⟩
  | some (m, expiresAt) =>
    dsimp only
    split_ifs with hlive
    · exact ⟨m + 1, expiresAt, rfl, by omega, .inr ⟨m, rfl, hlive⟩⟩
    · exact ⟨1, now + cfg.window, rfl, le_rfl, .inl rfl⟩

/-! ## A streak of failures -/

/-- calls that neither clear nor restart the counter -/
def Quiet (events : List (Tally × ℕ)) : Prop := ∀ e ∈ events, e.1 = .nothing ∨ e.1 = .counts

/-- how many of them count -/
def counted (events : List (Tally × ℕ)) : ℕ := events.countP (fun e => e.1 = .counts)

def tallies (cfg : Settings) (s : Keys) (events : List (Tally × ℕ)) : Keys :=
  events.foldl (fun s e => tally cfg e.2 s e.1) s

include hon in
theorem tallies_quiet {events : List (Tally × ℕ)} (hquiet : Quiet events) {s : Keys} {n expiresAt : ℕ}
    (hfail : s.fail = some (n, expiresAt)) (hlive : ∀ e ∈ events, e.2 < expiresAt) :
    (tallies cfg s events).fail = some (n + counted events, expiresAt) := by
  induction events generalizing s n with
  | nil => exact hfail
  | cons e events ih =>
    obtain ⟨htally, hquiet⟩ := List.forall_mem_cons.1 hquiet
    obtain ⟨hnow, hlive⟩ := List.forall_mem_cons.1 hlive
    rw [tallies, List.foldl_cons, counted, List.countP_cons]
    rcases htally with hnothing | hcounts
    · rw [hnothing]
      simpa [tallies, counted, tally] using ih hquiet hfail hlive
    · have hstep : (tally cfg e.2 s e.1).fail = some (n + 1, expiresAt) := by
        rw [hcounts]
        exact (recordFailure_fail hon e.2 s).trans (congrArg some (increment_live hfail hnow))
      have hrest := ih hquiet hstep hlive
      rw [tallies, counted] at hrest
      rw [hrest, hcounts]
      simp [Nat.add_assoc, Nat.add_comm]

include hon in
/-- **A streak trips the breaker.** After a call that counts or restarts come quiet calls and one that counts: if they are
as many as the threshold, and the counter the first call left does not expire before the last, the flag is set. -/
theorem tallies_trip {s : Keys} {n expiresAt last : ℕ} {events : List (Tally × ℕ)} (hfail : s.fail = some (n, expiresAt))
    (hn : 1 ≤ n) (hquiet : Quiet events) (hlive : ∀ e ∈ events, e.2 < expiresAt) (hlast : last < expiresAt)
    (hmany : cfg.toolBreakerThreshold ≤ 1 + counted events + 1) :
    isBreakerTripped cfg last (tallies cfg s (events ++ [(.counts, last)])) = true := by
  rw [tallies, List.foldl_append, List.foldl_cons, List.foldl_nil]
  apply recordFailure_trips hon
  have hcount := tallies_quiet hon hquiet hfail hlive
  rw [tallies] at hcount
  rw [increment_live hcount hlast]
  omega

end Teardrop.Health
