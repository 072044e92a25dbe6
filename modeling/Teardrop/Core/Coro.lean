/-
Coroutines over a store that outlives them. A coroutine ends by returning, by raising an exception, or by cancellation,
and keeps what it has written in every case. Cancellation comes at an await, before the awaited call took effect or
after; `except Exception` does not catch it.

`Keeps` is the invariant rule: what every awaited call keeps, the coroutine keeps however it ends. `Ends` relates the
store before to how the coroutine ends and the store after, one rule for each way to build one.
-/
import Mathlib

namespace Teardrop

/-- how a coroutine ends -/
inductive Exit (E α : Type) where
  | returned (a : α)
  | raised (e : E)
  | cancelled

/-- a coroutine that raises exceptions of type `E`, over stores of type `S` -/
def Coro (E S α : Type) := S → Exit E α × S

namespace Coro

section Calls

variable {E S α β : Type}

protected def pure (a : α) : Coro E S α := fun s => (.returned a, s)

protected def bind (m : Coro E S α) (k : α → Coro E S β) : Coro E S β := fun s =>
  match m s with
  | (.returned a, s') => k a s'
  | (.raised e, s') => (.raised e, s')
  | (.cancelled, s') => (.cancelled, s')

instance : Monad (Coro E S) where
  pure := Coro.pure
  bind := Coro.bind

/-- how an await is cut short: the coroutine is cancelled, or an exception is thrown into it, in either case with the
awaited call's effect committed or not -/
inductive Cut (E : Type) where
  | cancel (committed : Bool)
  | throw (e : E) (committed : Bool)

def Cut.committed : Cut E → Bool
  | .cancel committed => committed
  | .throw _ committed => committed

def Cut.exit : Cut E → Exit E α
  | .cancel _ => .cancelled
  | .throw e _ => .raised e

/-- await a call on the store -/
def await (cut : Option (Cut E)) (call : S → α × S) : Coro E S α := fun s =>
  match cut with
  | none => (.returned (call s).1, (call s).2)
  | some c => (c.exit, if c.committed then (call s).2 else s)

def raise (e : E) : Coro E S α := fun s => (.raised e, s)

/-- a call that leaves the store alone -/
def lift : Except E α → Coro E S α
  | .ok a => Coro.pure a
  | .error e => raise e

/-- read the store -/
def get (f : S → α) : Coro E S α := fun s => (.returned (f s), s)

def modify (f : S → S) : Coro E S Unit := fun s => (.returned (), f s)

/-- `try: ... except Exception`: the exception as a value; a cancellation goes on -/
def attempt (m : Coro E S α) : Coro E S (Except E α) := fun s =>
  match m s with
  | (.returned a, s') => (.returned (.ok a), s')
  | (.raised e, s') => (.returned (.error e), s')
  | (.cancelled, s') => (.cancelled, s')

theorem pure_run (a : α) (s : S) : (pure a : Coro E S α) s = (.returned a, s) := rfl

theorem bind_run (m : Coro E S α) (k : α → Coro E S β) (s : S) : (m >>= k) s = match m s with
      | (.returned a, s') => k a s'
      | (.raised e, s') => (.raised e, s')
      | (.cancelled, s') => (.cancelled, s') := rfl

theorem await_none (call : S → α × S) (s : S) : (await none call : Coro E S α) s = (.returned (call s).1, (call s).2) := rfl

theorem await_some (c : Cut E) (call : S → α × S) (s : S) :
    (await (some c) call : Coro E S α) s = (c.exit, if c.committed then (call s).2 else s) := rfl

theorem await_cases (cut : Option (Cut E)) (call : S → α × S) (s : S) :
    ((await cut call : Coro E S α) s).2 = s ∨ ((await cut call : Coro E S α) s).2 = (call s).2 := by
  cases cut with
  | none => exact Or.inr rfl
  | some c =>
    rw [await_some]
    cases c.committed
    · exact Or.inl rfl
    · exact Or.inr rfl

end Calls

/-! ## Invariants -/

section Invariants

variable {E S α β : Type} {I : S → Prop}

/-- the coroutine keeps `I`, however it ends -/
def Keeps (I : S → Prop) (m : Coro E S α) : Prop := ∀ s, I s → I (m s).2

theorem Keeps.pure (a : α) : Keeps I (Pure.pure a : Coro E S α) := fun _ h => h

theorem Keeps.get (f : S → α) : Keeps I (Coro.get f : Coro E S α) := fun _ h => h

theorem Keeps.raise (e : E) : Keeps I (Coro.raise e : Coro E S α) := fun _ h => h

theorem Keeps.modify {f : S → S} (h : ∀ s, I s → I (f s)) : Keeps I (Coro.modify f : Coro E S Unit) := h

theorem Keeps.lift (call : Except E α) : Keeps I (Coro.lift call : Coro E S α) := by
  intro s h
  cases call with
  | ok _ | error _ => exact h

theorem Keeps.attempt {m : Coro E S α} (hm : Keeps I m) : Keeps I (Coro.attempt m) := by
  intro s h
  have hs := hm s h
  rw [Coro.attempt]
  rcases hms : m s with ⟨exit, s'⟩
  rw [hms] at hs
  cases exit with
  | returned _ | raised _ | cancelled => exact hs

theorem Keeps.bind {m : Coro E S α} {k : α → Coro E S β} (hm : Keeps I m) (hk : ∀ a, Keeps I (k a)) : Keeps I (m >>= k) := by
  intro s h
  have hs := hm s h
  rw [bind_run]
  rcases hms : m s with ⟨exit, s'⟩
  rw [hms] at hs
  cases exit with
  | returned a => exact hk a s' hs
  | raised _ | cancelled => exact hs

theorem Keeps.await {call : S → α × S} (hcall : ∀ s, I s → I (call s).2) (cut : Option (Cut E)) :
    Keeps I (Coro.await cut call) := by
  intro s h
  rcases await_cases cut call s with heq | heq
  · rw [heq]
    exact h
  · rw [heq]
    exact hcall s h

end Invariants

/-! ## Outcomes -/

section Outcomes

variable {E S α β : Type} {P : S → Prop}

/-- from the stores of `P`, the coroutine ends as `Q` says -/
def Ends (P : S → Prop) (m : Coro E S α) (Q : Exit E α → S → Prop) : Prop := ∀ s, P s → Q (m s).1 (m s).2

variable {m : Coro E S α} {Q : Exit E α → S → Prop} {k : α → Coro E S β} {R : Exit E β → S → Prop}

theorem Ends.weaken {R : Exit E α → S → Prop} (hm : Ends P m Q) (h : ∀ exit s, Q exit s → R exit s) :
    Ends P m R := fun s hs => h _ _ (hm s hs)

theorem Ends.strengthen {P' : S → Prop} (hm : Ends P m Q) (h : ∀ s, P' s → P s) : Ends P' m Q := fun s hs => hm s (h s hs)

theorem Ends.pure {a : α} (h : ∀ s, P s → Q (.returned a) s) : Ends P (Pure.pure a : Coro E S α) Q := h

theorem Ends.raise {e : E} (h : ∀ s, P s → Q (.raised e) s) : Ends P (Coro.raise e : Coro E S α) Q := h

theorem Ends.and {R : Exit E α → S → Prop} (hq : Ends P m Q) (hr : Ends P m R) :
    Ends P m (fun exit s => Q exit s ∧ R exit s) := fun s hs => ⟨hq s hs, hr s hs⟩

theorem Keeps.ends {I : S → Prop} (h : Keeps I m) : Ends I m (fun _ s => I s) := h

theorem Ends.keeps {I : S → Prop} (h : Ends I m (fun _ s => I s)) : Keeps I m := h

theorem Ends.await {call : S → α × S} {cut : Option (Cut E)}
    (hnone : cut = none → ∀ s, P s → Q (.returned (call s).1) (call s).2)
    (hsome : ∀ c, cut = some c → ∀ s, P s → Q c.exit (if c.committed then (call s).2 else s)) :
    Ends P (Coro.await cut call) Q := by
  intro s hs
  cases cut with
  | none => exact hnone rfl s hs
  | some c => exact hsome c rfl s hs

/-- a step, and what follows each value of it; an exception of the step is one of the whole -/
theorem Ends.bind (hm : Ends P m Q) (hk : ∀ a, Ends (Q (.returned a)) (k a) R)
    (hraised : ∀ e s, Q (.raised e) s → R (.raised e) s) (hcancelled : ∀ s, Q .cancelled s → R .cancelled s) :
    Ends P (m >>= k) R := by
  intro s hs
  have hq := hm s hs
  rw [bind_run]
  rcases hms : m s with ⟨exit, s'⟩
  rw [hms] at hq
  cases exit with
  | returned a => exact hk a s' hq
  | raised e => exact hraised e s' hq
  | cancelled => exact hcancelled s' hq

theorem Ends.get {f : S → α} (h : ∀ a, Ends (fun s => P s ∧ f s = a) (k a) R) : Ends P (Coro.get f >>= k) R :=
  fun s hs => h (f s) s ⟨hs, rfl⟩

theorem Ends.lift {call : Except E α} (hok : ∀ a, call = .ok a → Ends P (k a) R)
    (herror : ∀ e, call = .error e → ∀ s, P s → R (.raised e) s) : Ends P (Coro.lift call >>= k) R := by
  intro s hs
  cases hcall : call with
  | ok a => exact hok a hcall s hs
  | error e => exact herror e hcall s hs

theorem Ends.bindAttempt {k : Except E α → Coro E S β} (hm : Ends P m Q) (hok : ∀ a, Ends (Q (.returned a)) (k (.ok a)) R)
    (herror : ∀ e, Ends (Q (.raised e)) (k (.error e)) R) (hcancelled : ∀ s, Q .cancelled s → R .cancelled s) :
    Ends P (Coro.attempt m >>= k) R := by
  intro s hs
  have hq := hm s hs
  rw [bind_run, Coro.attempt]
  rcases hms : m s with ⟨exit, s'⟩
  rw [hms] at hq
  cases exit with
  | returned a => exact hok a s' hq
  | raised e => exact herror e s' hq
  | cancelled => exact hcancelled s' hq

theorem Ends.attempt {call : Except E α} {k : Except E α → Coro E S β} (h : Ends P (k call) R) :
    Ends P (Coro.attempt (Coro.lift call) >>= k) R := by
  intro s hs
  cases call with
  | ok _ | error _ => exact h s hs

theorem Ends.update {f : S → S} {k : Unit → Coro E S β} (h : Ends (fun s => ∃ s', P s' ∧ s = f s') (k ()) R) :
    Ends P (Coro.modify f >>= k) R :=
  fun s hs => h (f s) ⟨s, hs, rfl⟩

end Outcomes

end Coro

end Teardrop
