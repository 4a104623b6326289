import Mathlib

/-!
# Computations that may fail

What a chain of fallible steps says about each of them.
-/

namespace Except

instance decidableEq {ε α : Type*} [DecidableEq ε] [DecidableEq α] : DecidableEq (Except ε α)
  | .error e, .error e' => decidable_of_iff (e = e') (Except.error.injEq e e').symm.to_iff
  | .ok a, .ok b => decidable_of_iff (a = b) (Except.ok.injEq a b).symm.to_iff
  | .error _, .ok _ => isFalse nofun
  | .ok _, .error _ => isFalse nofun

variable {ε α β : Type}

theorem exists_of_bind_ok {x : Except ε α} {f : α → Except ε β} {b : β} (h : x >>= f = .ok b) :
    ∃ a, x = .ok a ∧ f a = .ok b := by
  cases x with
  | error e => cases h
  | ok a => exact ⟨a, rfl, h⟩

theorem ok_of_bind_ok {x : Except ε Unit} {y : Except ε α} {a : α} (h : (x >>= fun _ => y) = .ok a) :
    x = .ok () ∧ y = .ok a := by
  obtain ⟨_, hx, hy⟩ := exists_of_bind_ok h
  exact ⟨hx, hy⟩

theorem bind_ok {x : Except ε Unit} {y : Except ε α} {a : α} (hx : x = .ok ()) (hy : y = .ok a) :
    (x >>= fun _ => y) = .ok a := by
  rw [hx]
  exact hy

theorem exists_of_map_ok {f : α → β} {x : Except ε α} {b : β} (h : x.map f = .ok b) : ∃ a, x = .ok a ∧ f a = b := by
  cases x with
  | error e => cases h
  | ok a => exact ⟨a, rfl, Except.ok.inj h⟩

def ensure (e : ε) (holds : Bool) : Except ε Unit := if holds = true then .ok () else .error e

theorem ensure_eq_ok {e : ε} {b : Bool} : ensure e b = .ok () ↔ b = true := by
  rw [ensure]
  split
  · next h => exact iff_of_true rfl h
  · next h => exact iff_of_false (by simp) h

def need (e : ε) : Option α → Except ε α
  | some a => .ok a
  | none => .error e

theorem need_eq_ok {e : ε} {o : Option α} {a : α} : need e o = .ok a ↔ o = some a := by
  cases o with
  | none => exact iff_of_false (by simp [need]) (by simp)
  | some b => simp [need]

end Except
