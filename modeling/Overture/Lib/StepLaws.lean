import Mathlib.Data.List.Basic

/-!
# Laws of the steps of a run

A run is the list of its inputs, the last one first. Where a law of single steps comes down to a condition on state and
input, for the states of an invariant that the condition keeps, the law holds at every step of a run exactly when the
condition does.
-/

namespace StepLaws

variable {σ α : Type} (step : σ → α → σ) (start : σ)

def after : List α → σ
  | [] => start
  | a :: past => step (after past) a

def Always (p : σ → α → Prop) : List α → Prop
  | [] => True
  | a :: past => p (after step start past) a ∧ Always p past

variable {step start} {inv : σ → Prop} {law ok : σ → α → Prop}

theorem Always.invariant {l : List α} (h : Always step start ok l) (hstart : inv start)
    (hkeeps : ∀ s a, inv s → ok s a → inv (step s a)) : inv (after step start l) := by
  induction l with
  | nil => exact hstart
  | cons a past ih => exact hkeeps _ a (ih h.2) h.1

theorem always_iff (hstart : inv start) (hkeeps : ∀ s a, inv s → ok s a → inv (step s a))
    (hiff : ∀ s a, inv s → (law s a ↔ ok s a)) (l : List α) : Always step start law l ↔ Always step start ok l := by
  induction l with
  | nil => exact Iff.rfl
  | cons a past ih =>
    rw [Always, Always, ih]
    apply and_congr_left
    intro hpast
    exact hiff _ a (hpast.invariant hstart hkeeps)

end StepLaws
