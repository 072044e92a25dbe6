/-
Database transactions as state-passing functions that may raise. A body that raises has no result state, so `commit`
returns the state it started from: that is the rollback. `savepoint` is a transaction nested in another: what it wrote
is dropped when it raises one of the handled exceptions, and any other exception leaves the outer transaction too.
-/
import Teardrop.Core.Py

namespace Teardrop

open Teardrop.Py

/-- a transaction body over stores of type `S` -/
abbrev Tx (S : Type) := StateT S (Except Exc)

namespace Tx

section Body

variable {S α β : Type}

/-- a constraint of the schema: `e` is raised when it fails -/
def require (c : Prop) [Decidable c] (e : Exc) : Tx S Unit :=
  fun s => if c then .ok ((), s) else .error e

/-- a query -/
def read (f : S → α) : Tx S α := fun s => .ok (f s, s)

/-- a computation beside the store that may raise -/
def lift (x : Call α) : Tx S α := fun s =>
  match x with
  | .ok a => .ok (a, s)
  | .error e => .error e

/-- a write -/
def write (f : S → S) : Tx S Unit := fun s => .ok ((), f s)

/-- raise -/
def raise (e : Exc) : Tx S α := fun _ => .error e

/-- run a body as one transaction -/
def commit (t : Tx S α) (s : S) : Except Exc α × S :=
  match t s with
  | .ok (a, s') => (.ok a, s')
  | .error e => (.error e, s)

/-- run a body in a savepoint; `handled` exceptions undo it and are swallowed -/
def savepoint (handled : Exc → Bool) (t : Tx S α) : Tx S (Option α) := fun s =>
  match t s with
  | .ok (a, s') => .ok (some a, s')
  | .error e => if handled e then .ok (none, s) else .error e

theorem bind_run (t : Tx S α) (f : α → Tx S β) (s : S) : (t >>= f) s = match t s with
      | .ok (a, s') => f a s'
      | .error e => .error e := by
  show Except.bind (t s) (fun p => f p.1 p.2) = _
  cases t s <;> rfl

theorem pure_run (a : α) (s : S) : (pure a : Tx S α) s = .ok (a, s) := rfl

theorem read_run (f : S → α) (s : S) : read f s = .ok (f s, s) := rfl

theorem require_run (c : Prop) [Decidable c] (e : Exc) (s : S) : require c e s = if c then .ok ((), s) else .error e := rfl

variable {f : α → Tx S β} {s : S} {r : β × S}

theorem bind_ok {t : Tx S α} (h : (t >>= f) s = .ok r) : ∃ a s', t s = .ok (a, s') ∧ f a s' = .ok r := by
  obtain ⟨⟨a, s'⟩, ht, hf⟩ := bind_eq_ok h
  exact ⟨a, s', ht, hf⟩

theorem pure_ok {a : α} {r : α × S} (h : (pure a : Tx S α) s = .ok r) : r = (a, s) := by
  cases h; rfl

theorem require_ok {c : Prop} [Decidable c] {e : Exc} {r : Unit × S} (h : require c e s = .ok r) : c ∧ r = ((), s) := by
  unfold require at h
  split_ifs at h with hc
  cases h
  exact ⟨hc, rfl⟩

theorem require_bind_ok {c : Prop} [Decidable c] {e : Exc} {f : Unit → Tx S β} (h : (require c e >>= f) s = .ok r) :
    c ∧ f () s = .ok r := by
  obtain ⟨a, s', ht, hf⟩ := bind_ok h
  obtain ⟨hc, hr⟩ := require_ok ht
  cases hr
  exact ⟨hc, hf⟩

theorem read_bind_ok {g : S → α} (h : (read g >>= f) s = .ok r) : f (g s) s = .ok r := by
  obtain ⟨a, s', ht, hf⟩ := bind_ok h
  cases ht
  exact hf

theorem write_bind_ok {g : S → S} {f : Unit → Tx S β} (h : (write g >>= f) s = .ok r) : f () (g s) = .ok r := by
  obtain ⟨a, s', ht, hf⟩ := bind_ok h
  cases ht
  exact hf

theorem lift_bind_ok {x : Call α} (h : (lift x >>= f) s = .ok r) : ∃ a, x = .ok a ∧ f a s = .ok r := by
  obtain ⟨a, s', ht, hf⟩ := bind_ok h
  cases x with
  | error e => cases ht
  | ok a' => cases ht; exact ⟨_, rfl, hf⟩

theorem commit_cases (t : Tx S α) (s : S) :
    (∃ a s', t s = .ok (a, s') ∧ commit t s = (.ok a, s')) ∨ ∃ e, t s = .error e ∧ commit t s = (.error e, s) := by
  unfold commit
  cases h : t s with
  | ok r => exact Or.inl ⟨r.1, r.2, rfl, rfl⟩
  | error e => exact Or.inr ⟨e, rfl, rfl⟩

end Body

end Tx

end Teardrop
