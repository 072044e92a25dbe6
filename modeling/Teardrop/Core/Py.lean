/-
Python exceptions, as far as handlers tell them apart, and the results of calls that may raise. The database driver's
errors are kept by the classes `shared/db_pool.py` re-exports: a handler catches `IntegrityError` (unique, foreign-key,
check) or `DataError` (a number out of range), and anything else is `operational`.
-/
import Mathlib

namespace Teardrop.Py

/-- an error of the database driver -/
inductive PgError where
  | uniqueViolation
  | foreignKeyViolation
  | checkViolation
  | numericOutOfRange
  | operational
deriving DecidableEq

/-- an exception: its class and, where the program writes one, its text -/
inductive Exc where
  | valueError (msg : String)
  | typeError
  | keyError
  | indexError (msg : String)
  | attributeError
  | overflowError
  | runtimeError (msg : String)
  | settlementClaimLost (msg : String)
  | pg (e : PgError)
  | recursionError
  | unicodeEncodeError
deriving DecidableEq

def Exc.isIntegrityError : Exc → Bool
  | .pg .uniqueViolation | .pg .foreignKeyViolation | .pg .checkViolation => true
  | _ => false

def Exc.isDataError : Exc → Bool
  | .pg .numericOutOfRange => true
  | _ => false

/-- `except ValueError`: `UnicodeEncodeError` is one -/
def Exc.isValueError : Exc → Bool
  | .valueError _ | .unicodeEncodeError => true
  | _ => false

/-- what a call gives back: a value, or the exception it raises -/
abbrev Call := Except Exc

theorem bind_eq_ok {α β : Type} {x : Call α} {f : α → Call β} {b : β} (h : (x >>= f) = .ok b) :
    ∃ a, x = .ok a ∧ f a = .ok b := by
  cases x with
  | error e => cases h
  | ok a => exact ⟨a, rfl, h⟩

theorem mapM_cons_ok {α β : Type} {f : α → Call β} {a : α} {l : List α} {bs : List β} (h : (a :: l).mapM f = .ok bs) :
    ∃ b bs', f a = .ok b ∧ l.mapM f = .ok bs' ∧ bs = b :: bs' := by
  rw [List.mapM_cons] at h
  obtain ⟨b, hb, h⟩ := bind_eq_ok h
  obtain ⟨bs', hbs, h⟩ := bind_eq_ok h
  exact ⟨b, bs', hb, hbs, (Except.ok.inj h).symm⟩

theorem mapM_ok_iff {α β : Type} (f : α → Call β) (l : List α) : (∃ bs, l.mapM f = .ok bs) ↔ ∀ a ∈ l, ∃ b, f a = .ok b := by
  induction l with
  | nil => simp [pure, Except.pure]
  | cons a l ih =>
    rw [List.forall_mem_cons, ← ih]
    constructor
    · rintro ⟨bs, h⟩
      obtain ⟨b, bs', hb, hbs, -⟩ := mapM_cons_ok h
      exact ⟨⟨b, hb⟩, bs', hbs⟩
    · rintro ⟨⟨b, hb⟩, bs, hbs⟩
      refine ⟨b :: bs, ?_⟩
      rw [List.mapM_cons, hb, hbs]
      rfl

end Teardrop.Py
