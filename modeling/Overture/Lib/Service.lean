import Mathlib.Data.List.Basic
import Mathlib.Data.List.TakeDrop

/-!
# Requests in flight over a shared store

A service works a request off one statement after the other. Between two of them the store may change by the statements
of others and by its surroundings. What a request relies on has to survive all that; an invariant of the store and of
the requests in flight then holds in every run.
-/

/-- The phases in which requests arrive, the next statement of a request in a phase, and what the surroundings do.
A statement that yields nothing has to wait; a request without a next phase has been answered. -/
structure Service (σ φ χ ε : Type) where
  entry : φ → Bool
  exec : χ → φ → σ → Option (σ × Option φ)
  env : ε → σ → Option σ

namespace Service

open Option List

variable {σ φ χ ε : Type}

structure Pool (σ φ : Type) where
  store : σ
  flights : List φ

inductive Move (φ χ ε : Type) where
  | arrive (f : φ)
  | act (i : Nat) (c : χ)
  | env (e : ε)

variable (sys : Service σ φ χ ε)

def move (p : Pool σ φ) : Move φ χ ε → Option (Pool σ φ)
  | .arrive f => if sys.entry f then some ⟨p.store, p.flights ++ [f]⟩ else none
  | .act i c =>
    (p.flights[i]?).bind fun f => (sys.exec c f p.store).map fun r =>
      ⟨r.1, p.flights.take i ++ r.2.toList ++ p.flights.drop (i + 1)⟩
  | .env e => (sys.env e p.store).map fun store => ⟨store, p.flights⟩

def run : Pool σ φ → List (Move φ χ ε) → Option (Pool σ φ)
  | p, [] => some p
  | p, m :: ms => (sys.move p m).bind fun q => run q ms

inductive Run (ok : Pool σ φ → Move φ χ ε → Prop) (p : Pool σ φ) : Pool σ φ → Prop
  | refl : Run ok p p
  | step {q r : Pool σ φ} (m : Move φ χ ε) : Run ok p q → ok q m → sys.move q m = some r → Run ok p r

def anyMove (_ : Pool σ φ) (_ : Move φ χ ε) : Prop := True

def Meets (ok : Pool σ φ → Move φ χ ε → Prop) : Pool σ φ → List (Move φ χ ε) → Prop
  | _, [] => True
  | p, m :: ms => ok p m ∧ ∀ q ∈ sys.move p m, Meets ok q ms

instance decidableMeets (ok : Pool σ φ → Move φ χ ε → Prop) [∀ p m, Decidable (ok p m)] :
    ∀ (p : Pool σ φ) (ms : List (Move φ χ ε)), Decidable (sys.Meets ok p ms)
  | _, [] => .isTrue trivial
  | p, m :: ms =>
    have : ∀ q, Decidable (sys.Meets ok q ms) := fun q => decidableMeets ok q ms
    inferInstanceAs (Decidable (ok p m ∧ ∀ q ∈ sys.move p m, sys.Meets ok q ms))

variable {sys} {ok : Pool σ φ → Move φ χ ε → Prop}

variable {p q : Pool σ φ} {i : Nat}

theorem move_arrive {f : φ} (h : sys.move p (.arrive f) = some q) :
    sys.entry f = true ∧ q = ⟨p.store, p.flights ++ [f]⟩ := by
  rw [move] at h
  split_ifs at h with hentry
  exact ⟨hentry, (some_inj.mp h).symm⟩

theorem move_act {c : χ} (h : sys.move p (.act i c) = some q) :
    ∃ f store f', p.flights[i]? = some f ∧ sys.exec c f p.store = some (store, f') ∧
      q = ⟨store, p.flights.take i ++ f'.toList ++ p.flights.drop (i + 1)⟩ := by
  rw [move, bind_eq_some_iff] at h
  obtain ⟨f, hf, h⟩ := h
  obtain ⟨⟨store, f'⟩, hexec, rfl⟩ := map_eq_some_iff.mp h
  exact ⟨f, store, f', hf, hexec, rfl⟩

theorem move_act_split {c : χ} (h : sys.move p (.act i c) = some q) :
    ∃ l f r store f', p.flights[i]? = some f ∧ p.flights = l ++ f :: r ∧
      sys.exec c f p.store = some (store, f') ∧ q = ⟨store, l ++ f'.toList ++ r⟩ := by
  obtain ⟨f, store, f', hf, hexec, rfl⟩ := move_act h
  obtain ⟨hi, rfl⟩ := List.getElem?_eq_some_iff.mp hf
  refine ⟨_, _, _, store, f', hf, ?_, hexec, rfl⟩
  rw [← List.drop_eq_getElem_cons hi, List.take_append_drop]

theorem mem_of_mem_act {fs : List φ} {f' : Option φ} {g : φ}
    (h : g ∈ fs.take i ++ f'.toList ++ fs.drop (i + 1)) : g ∈ fs ∨ g ∈ f' := by
  rcases mem_append.mp h with h | h
  · rcases mem_append.mp h with h | h
    · exact .inl (mem_of_mem_take h)
    · exact .inr (mem_toList.mp h)
  · exact .inl (mem_of_mem_drop h)

theorem move_env {e : ε} (h : sys.move p (.env e) = some q) :
    ∃ store, sys.env e p.store = some store ∧ q = ⟨store, p.flights⟩ := by
  obtain ⟨store, hstore, rfl⟩ := map_eq_some_iff.mp h
  exact ⟨store, hstore, rfl⟩

theorem Run.of_run {r : Pool σ φ} {ms : List (Move φ χ ε)} (hrun : sys.Run ok p q) (hmeets : sys.Meets ok q ms)
    (h : sys.run q ms = some r) : sys.Run ok p r := by
  induction ms generalizing q with
  | nil =>
    cases h
    exact hrun
  | cons m ms ih =>
    obtain ⟨q', hmove, hrest⟩ := bind_eq_some_iff.mp h
    exact ih (hrun.step m hmeets.1 hmove) (hmeets.2 q' hmove) hrest

theorem meets_anyMove (p : Pool σ φ) (ms : List (Move φ χ ε)) : sys.Meets anyMove p ms := by
  induction ms generalizing p with
  | nil => trivial
  | cons m ms ih => exact ⟨trivial, fun q _ => ih q⟩

theorem Run.invariant {I : Pool σ φ → Prop} (h : sys.Run ok p q) (hp : I p)
    (hstep : ∀ q m r, I q → ok q m → sys.move q m = some r → I r) : I q := by
  induction h with
  | refl => exact hp
  | step m _ hok hmove ih => exact hstep _ m _ ih hok hmove

structure Holds (K : σ → Prop) (J : σ → φ → Prop) (p : Pool σ φ) : Prop where
  store : K p.store
  flights : ∀ f ∈ p.flights, J p.store f

/-- The obligations for `Holds`: `R` is how a statement may change the store under a request in flight. -/
structure Keeps (sys : Service σ φ χ ε) (ok : Pool σ φ → Move φ χ ε → Prop) (K : σ → Prop) (J : σ → φ → Prop)
    (R : σ → σ → Prop) : Prop where
  arrive : ∀ store f, K store → sys.entry f = true → J store f
  exec : ∀ p i f c store f', Holds K J p → ok p (.act i c) → p.flights[i]? = some f →
    sys.exec c f p.store = some (store, f') → K store ∧ R p.store store ∧ ∀ g ∈ f', J store g
  env : ∀ p e store, Holds K J p → ok p (.env e) → sys.env e p.store = some store → K store ∧ R p.store store
  stable : ∀ store store' f, K store → K store' → R store store' → J store f → J store' f

theorem Keeps.move {K : σ → Prop} {J : σ → φ → Prop} {R : σ → σ → Prop} (hk : Keeps sys ok K J R)
    {m : Move φ χ ε} (hp : Holds K J p) (hok : ok p m) (h : sys.move p m = some q) : Holds K J q := by
  cases m with
  | arrive f =>
    obtain ⟨hentry, rfl⟩ := move_arrive h
    refine ⟨hp.store, fun g hg => ?_⟩
    rcases mem_append.mp hg with hg | hg
    · exact hp.flights g hg
    rw [mem_singleton.mp hg]
    exact hk.arrive _ f hp.store hentry
  | act i c =>
    obtain ⟨f, store, f', hf, hexec, rfl⟩ := move_act h
    obtain ⟨hstore, hchange, hnext⟩ := hk.exec p i f c store f' hp hok hf hexec
    refine ⟨hstore, fun g hg => ?_⟩
    rcases mem_of_mem_act hg with hg | hg
    · exact hk.stable _ _ g hp.store hstore hchange (hp.flights g hg)
    · exact hnext g hg
  | env e =>
    obtain ⟨store, henv, rfl⟩ := move_env h
    obtain ⟨hstore, hchange⟩ := hk.env p e store hp hok henv
    exact ⟨hstore, fun g hg => hk.stable _ _ g hp.store hstore hchange (hp.flights g hg)⟩

theorem Keeps.run {K : σ → Prop} {J : σ → φ → Prop} {R : σ → σ → Prop} (hk : Keeps sys ok K J R)
    (hp : Holds K J p) (h : sys.Run ok p q) : Holds K J q :=
  h.invariant hp fun _ _ _ hq hok hmove => hk.move hq hok hmove

end Service
