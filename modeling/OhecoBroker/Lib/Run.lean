/-
Runs of a system given by a total step function.

* `run`, `Along`: the state at the end of a run, and a condition on every step of it;
* `along_invariant`, `run_invariant`: **what every step keeps, every run keeps**;
* `run_reflTransGen`: a step-wise simulation lifts to runs.
-/
import Mathlib.Logic.Relation
import Mathlib.Tactic

namespace OhecoBroker.Lib

variable {σ α τ : Type*}

/-- The state a system reaches from `s` by the actions `as`, in order. -/
def run (step : σ → α → σ) (s : σ) (as : List α) : σ := as.foldl step s

@[simp] lemma run_nil (step : σ → α → σ) (s : σ) : run step s [] = s := rfl

@[simp] lemma run_cons (step : σ → α → σ) (s : σ) (a : α) (as : List α) :
    run step s (a :: as) = run step (step s a) as := rfl

lemma run_append (step : σ → α → σ) (s : σ) (as bs : List α) :
    run step s (as ++ bs) = run step (run step s as) bs :=
  List.foldl_append

/-- The condition `P` holds of every step of the run from `s` by `as`. -/
def Along (step : σ → α → σ) (P : σ → α → Prop) : σ → List α → Prop
  | _, [] => True
  | s, a :: as => P s a ∧ Along step P (step s a) as

instance decidableAlong (step : σ → α → σ) (P : σ → α → Prop)
    [h : ∀ s a, Decidable (P s a)] : ∀ s as, Decidable (Along step P s as)
  | _, [] => isTrue trivial
  | s, a :: as =>
    haveI := decidableAlong step P (step s a) as
    inferInstanceAs (Decidable (P s a ∧ Along step P (step s a) as))

lemma along_of_forall {step : σ → α → σ} {P : α → Prop} {s : σ} {as : List α}
    (h : ∀ a ∈ as, P a) : Along step (fun _ a => P a) s as := by
  induction as generalizing s with
  | nil => trivial
  | cons a as ih =>
    obtain ⟨ha, has⟩ := List.forall_mem_cons.mp h
    exact ⟨ha, ih has⟩

/-- A condition along a run in two parts. -/
lemma along_append {step : σ → α → σ} {P : σ → α → Prop} {s : σ} {as bs : List α} :
    Along step P s (as ++ bs) ↔ Along step P s as ∧ Along step P (run step s as) bs := by
  induction as generalizing s with
  | nil => simp [Along]
  | cons a as ih => simp [Along, ih, and_assoc]

theorem along_invariant {step : σ → α → σ} {P : σ → α → Prop} {I : σ → Prop}
    (hstep : ∀ s a, I s → P s a → I (step s a)) {s : σ} {as : List α}
    (hs : I s) (has : Along step P s as) : I (run step s as) := by
  induction as generalizing s with
  | nil => exact hs
  | cons a as ih => exact ih (hstep s a hs has.1) has.2

theorem run_invariant {step : σ → α → σ} {I : σ → Prop}
    (hstep : ∀ s a, I s → I (step s a)) {s : σ} (as : List α) (hs : I s) :
    I (run step s as) := by
  induction as generalizing s with
  | nil => exact hs
  | cons a as ih => exact ih (hstep s a hs)

theorem run_reflTransGen {step : σ → α → σ} {I : σ → Prop} {R : τ → τ → Prop}
    (abs : σ → τ) (hI : ∀ s a, I s → I (step s a))
    (hR : ∀ s a, I s → Relation.ReflTransGen R (abs s) (abs (step s a)))
    {s : σ} (as : List α) (hs : I s) :
    Relation.ReflTransGen R (abs s) (abs (run step s as)) := by
  induction as generalizing s with
  | nil => exact .refl
  | cons a as ih => exact (hR s a hs).trans (ih (hI s a hs))

end OhecoBroker.Lib
