/-
Runs of a deterministic machine whose operations carry every choice of the environment, so that a list of operations
is one interleaving of all callers.

`collect` gathers what the steps of a run write, each in the state it started from; `history_rule` proves statements about it
together with an invariant. `Legal` says that every step of a run meets a condition on the state it starts from; `legal_inv` is
the invariant rule for such runs, `legal_iff` and `legal_iff_under` say when the condition is exact. `Occurs` says that some step
takes effect, and `collect_once` is the rule for effects that happen once.
-/
import Mathlib

namespace Teardrop.Runs

section Run

variable {S O A : Type} (step : S → O → S)

def run (s : S) (ops : List O) : S := ops.foldl step s

/-- what the steps of a run write, in order -/
def collect (obs : S → O → List A) : S → List O → List A
  | _, [] => []
  | s, o :: ops => obs s o ++ collect obs (step s o) ops

@[simp] theorem run_nil (s : S) : run step s [] = s := rfl

@[simp] theorem run_cons (s : S) (o : O) (ops : List O) : run step s (o :: ops) = run step (step s o) ops := rfl

theorem run_append (s : S) (ops ops' : List O) : run step s (ops ++ ops') = run step (run step s ops) ops' :=
  List.foldl_append

theorem run_snoc (s : S) (ops : List O) (o : O) : run step s (ops ++ [o]) = step (run step s ops) o := by
  rw [run_append]; rfl

variable (obs : S → O → List A) {s : S} (ok : S → O → Prop)

@[simp] theorem collect_nil (s : S) : collect step obs s [] = [] := rfl

theorem collect_snoc (s : S) (ops : List O) (o : O) :
    collect step obs s (ops ++ [o]) = collect step obs s ops ++ obs (run step s ops) o := by
  induction ops generalizing s with
  | nil => simp [collect]
  | cons x ops ih => simp [collect, ih, List.append_assoc]

theorem run_inv (I : S → Prop) (hstep : ∀ s o, I s → I (step s o)) (ops : List O) (h : I s) : I (run step s ops) := by
  induction ops generalizing s with
  | nil => exact h
  | cons o ops ih => exact ih (hstep s o h)

/-- every step of the run is taken in a state where `ok` allows it -/
def Legal (ok : S → O → Prop) : S → List O → Prop
  | _, [] => True
  | s, o :: ops => ok s o ∧ Legal ok (step s o) ops

instance decidableLegal (ok : S → O → Prop) [∀ s o, Decidable (ok s o)] : ∀ s ops, Decidable (Legal step ok s ops)
  | _, [] => .isTrue trivial
  | s, o :: ops =>
    have := decidableLegal ok (step s o) ops
    inferInstanceAs (Decidable (ok s o ∧ Legal step ok (step s o) ops))

theorem legal_inv (I : S → Prop) (hstep : ∀ s o, I s → ok s o → I (step s o)) (ops : List O) (h : I s)
    (hl : Legal step ok s ops) : I (run step s ops) := by
  induction ops generalizing s with
  | nil => exact h
  | cons o ops ih => exact ih (hstep s o h hl.1) hl.2

/-- where a step keeps `I` exactly when `ok` allows it, `I` holds in every state reached by exactly the legal runs -/
theorem legal_iff (I : S → Prop) (hstep : ∀ s o, I s → (I (step s o) ↔ ok s o)) (ops : List O) (h : I s) :
    (∀ n, I (run step s (ops.take n))) ↔ Legal step ok s ops := by
  induction ops generalizing s with
  | nil => exact ⟨fun _ => trivial, fun _ n => by rw [List.take_nil]; exact h⟩
  | cons o ops ih =>
    constructor
    · intro hall
      have hfirst : I (step s o) := hall 1
      exact ⟨(hstep s o h).1 hfirst, (ih hfirst).1 (fun n => hall (n + 1))⟩
    · rintro ⟨hok, hrest⟩ n
      match n with
      | 0 => exact h
      | n + 1 => exact (ih ((hstep s o h).2 hok)).2 hrest n

/-- where steps that `may` be taken keep `inv`, and under it keep `I` exactly when `ok` allows them -/
theorem legal_iff_under (inv I : S → Prop) (may ok : S → O → Prop) (hinv : ∀ s o, inv s → may s o → inv (step s o))
    (hstep : ∀ s o, inv s → may s o → I s → (I (step s o) ↔ ok s o)) (ops : List O) (h : inv s) (hI : I s)
    (hmay : Legal step may s ops) : (∀ n, I (run step s (ops.take n))) ↔ Legal step ok s ops := by
  induction ops generalizing s with
  | nil => exact ⟨fun _ => trivial, fun _ n => by rw [List.take_nil]; exact hI⟩
  | cons o ops ih =>
    have hnext := hinv s o h hmay.1
    constructor
    · intro hall
      have hfirst : I (step s o) := hall 1
      exact ⟨(hstep s o h hmay.1 hI).1 hfirst, (ih hnext hfirst hmay.2).1 (fun n => hall (n + 1))⟩
    · rintro ⟨hok, hrest⟩ n
      match n with
      | 0 => exact hI
      | n + 1 => exact (ih hnext ((hstep s o h hmay.1 hI).2 hok) hmay.2).2 hrest n

theorem legal_append (s : S) (ops ops' : List O) :
    Legal step ok s (ops ++ ops') ↔ Legal step ok s ops ∧ Legal step ok (run step s ops) ops' := by
  induction ops generalizing s with
  | nil => exact ⟨fun h => ⟨trivial, h⟩, And.right⟩
  | cons o ops ih => simp only [List.cons_append, Legal, run_cons, ih, and_assoc]

theorem Legal.imp {ok ok' : S → O → Prop} (h : ∀ s o, ok s o → ok' s o) :
    ∀ {s : S} {ops : List O}, Legal step ok s ops → Legal step ok' s ops
  | _, [], _ => trivial
  | s, o :: _, hl => ⟨h s o hl.1, Legal.imp h hl.2⟩

theorem legal_of_forall {ok : S → O → Prop} (h : ∀ s o, ok s o) : ∀ (s : S) (ops : List O), Legal step ok s ops
  | _, [] => trivial
  | s, o :: ops => ⟨h s o, legal_of_forall h (step s o) ops⟩

theorem legal_of_mem {p : O → Prop} : ∀ (s : S) (ops : List O), (∀ o ∈ ops, p o) → Legal step (fun _ o => p o) s ops
  | _, [], _ => trivial
  | s, o :: ops, h => ⟨h o List.mem_cons_self, legal_of_mem (step s o) ops (fun o' ho' => h o' (List.mem_cons_of_mem o ho'))⟩

/-- some step of the run is taken where `p` holds -/
def Occurs (p : S → O → Prop) : S → List O → Prop
  | _, [] => False
  | s, o :: ops => p s o ∨ Occurs p (step s o) ops

/-- **Exactly once.** -/
theorem collect_once (used : S → Bool) (takes : S → O → Prop)
    (hused : ∀ s o, used s = true → obs s o = [] ∧ used (step s o) = true)
    (hfree : ∀ s o, used s = false → (takes s o ∧ (∃ a, obs s o = [a]) ∧ used (step s o) = true) ∨ (¬ takes s o ∧ obs s o = [] ∧ used (step s o) = false))
    (ops : List O) (s : S) :
    (used s = true → collect step obs s ops = []) ∧
      (used s = false → (Occurs step takes s ops → ∃ a, collect step obs s ops = [a]) ∧
        (¬ Occurs step takes s ops → collect step obs s ops = [])) := by
  induction ops generalizing s with
  | nil => exact ⟨fun _ => rfl, fun _ => ⟨fun h => h.elim, fun _ => rfl⟩⟩
  | cons o ops ih =>
    constructor
    · intro hs
      obtain ⟨hnone, hs'⟩ := hused s o hs
      rw [collect, hnone, (ih (step s o)).1 hs', List.nil_append]
    · intro hs
      rcases hfree s o hs with ⟨htakes, ⟨a, ha⟩, hs'⟩ | ⟨hidle, hnone, hs'⟩
      · have hwritten : collect step obs s (o :: ops) = [a] := by
          rw [collect, ha, (ih (step s o)).1 hs', List.append_nil]
        exact ⟨fun _ => ⟨a, hwritten⟩, fun hno => absurd (Or.inl htakes) hno⟩
      · have hwritten : collect step obs s (o :: ops) = collect step obs (step s o) ops := by
          rw [collect, hnone, List.nil_append]
        obtain ⟨hone, hzero⟩ := (ih (step s o)).2 hs'
        rw [hwritten]
        exact ⟨fun h => hone (h.resolve_left hidle), fun hno => hzero (fun h => hno (Or.inr h))⟩

theorem history_rule (I : S → List O → Prop) (h0 : I s [])
    (hstep : ∀ ops o, I (run step s ops) ops → I (step (run step s ops) o) (ops ++ [o])) (ops : List O) :
    I (run step s ops) ops := by
  induction ops using List.reverseRecOn with
  | nil => exact h0
  | append_singleton ops o ih =>
    rw [run_snoc]
    exact hstep ops o ih

end Run

end Teardrop.Runs
