import Mathlib

/-!
# Interleaved programs

A program is a tree of operations on a shared state. A pool holds threads that run such
programs; a move lets one thread execute its next operation, starts a thread, or is a step
of the environment. Each operation is one atomic step.
-/

namespace Interleave

structure Interface where
  Op : Type
  Res : Op → Type

inductive Prog (I : Interface) (L α : Type) where
  | ret (a : α)
  | op (o : I.Op) (k : I.Res o → Prog I L α)
  | fork (l : L) (k : Prog I L α)

namespace Prog

variable {I : Interface} {L α β : Type}

def bind : Prog I L α → (α → Prog I L β) → Prog I L β
  | ret a, f => f a
  | op o k, f => op o fun r => (k r).bind f
  | fork l k, f => fork l (k.bind f)

instance : Monad (Prog I L) where
  pure := ret
  bind := bind

def perform (o : I.Op) : Prog I L (I.Res o) := op o ret

def spawn (l : L) : Prog I L Unit := fork l (ret ())

@[simp] theorem pure_eq (a : α) : (pure a : Prog I L α) = ret a := rfl

@[simp] theorem bind_eq (p : Prog I L α) (f : α → Prog I L β) : (p >>= f) = p.bind f := rfl

@[simp] theorem ret_bind (a : α) (f : α → Prog I L β) : (ret a).bind f = f a := rfl

@[simp] theorem op_bind (o : I.Op) (k : I.Res o → Prog I L α) (f : α → Prog I L β) :
    (op o k).bind f = op o fun r => (k r).bind f := rfl

@[simp] theorem fork_bind (l : L) (k : Prog I L α) (f : α → Prog I L β) :
    (fork l k).bind f = fork l (k.bind f) := rfl

@[simp] theorem perform_bind (o : I.Op) (f : I.Res o → Prog I L β) : (perform o).bind f = op o f := rfl

@[simp] theorem spawn_bind (l : L) (f : Unit → Prog I L β) : (spawn l).bind f = fork l (f ()) := rfl

def result? : Prog I L α → Option α
  | ret a => some a
  | _ => none

theorem eq_ret_of_result? {p : Prog I L α} {a : α} (h : p.result? = some a) : p = ret a := by
  cases p with
  | ret b => rw [Option.some.inj h]
  | op o k => cases h
  | fork l k => cases h

/-- A program that runs alone, where nothing comes between its operations. -/
def solo {S : Type} (exec : (o : I.Op) → S → Option (I.Res o × S)) : Prog I L α → S → Option (α × S)
  | ret a, s => some (a, s)
  | op o k, s => (exec o s).bind fun res => (k res.1).solo exec res.2
  | fork _ k, s => k.solo exec s

section

variable {S : Type} {exec : (o : I.Op) → S → Option (I.Res o × S)}

@[simp] theorem solo_ret (a : α) (s : S) : (ret a : Prog I L α).solo exec s = some (a, s) := rfl

@[simp] theorem solo_op (o : I.Op) (k : I.Res o → Prog I L α) (s : S) :
    (op o k).solo exec s = (exec o s).bind fun res => (k res.1).solo exec res.2 := rfl

@[simp] theorem solo_fork (l : L) (k : Prog I L α) (s : S) : (fork l k).solo exec s = k.solo exec s := rfl

theorem solo_bind (p : Prog I L α) (f : α → Prog I L β) (s : S) :
    (p.bind f).solo exec s = (p.solo exec s).bind fun res => (f res.1).solo exec res.2 := by
  induction p generalizing s with
  | ret a => rfl
  | op o k ih =>
    simp only [op_bind, solo_op]
    cases exec o s with
    | none => rfl
    | some res => exact ih res.1 res.2
  | fork l k ih => exact ih s

end

end Prog

/-- What the operations do to the state and what the threads run. An operation that cannot proceed yields none; a
choice settles what the state does not. The last fields are what a fork and a return change, and what the environment
does. -/
structure System (I : Interface) (L R S : Type) where
  Choice : Type
  exec : Choice → Nat → (o : I.Op) → S → Option (I.Res o × S)
  body : L → Prog I L R
  external : L → Bool
  forked : Nat → Nat → L → S → S
  returned : Nat → S → S
  Event : Type
  env : Event → S → Option S

structure Thread (I : Interface) (L R : Type) where
  label : L
  prog : Prog I L R

structure Pool (I : Interface) (L R S : Type) where
  state : S
  threads : List (Thread I L R)

inductive Move (L C E : Type) where
  | start (l : L)
  | step (i : Nat) (c : C)
  | env (e : E)

variable {I : Interface} {L R S : Type}

namespace System

variable (sys : System I L R S)

def settle (i : Nat) (p : Prog I L R) (s : S) : S :=
  match p with
  | .ret _ => sys.returned i s
  | _ => s

def launch (l : L) (p : Pool I L R S) : Pool I L R S :=
  ⟨sys.settle p.threads.length (sys.body l) p.state, p.threads ++ [⟨l, sys.body l⟩]⟩

def advance (p : Pool I L R S) : Move L sys.Choice sys.Event → Option (Pool I L R S)
  | .start l => if sys.external l then some (sys.launch l p) else none
  | .env e => (sys.env e p.state).map fun s => { p with state := s }
  | .step i c =>
    match p.threads[i]? with
    | some ⟨l, .op o k⟩ =>
      match sys.exec c i o p.state with
      | some (r, s) => some ⟨sys.settle i (k r) s, p.threads.set i ⟨l, k r⟩⟩
      | none => none
    | some ⟨l, .fork child k⟩ =>
      some (sys.launch child ⟨sys.settle i k (sys.forked i p.threads.length child p.state),
        p.threads.set i ⟨l, k⟩⟩)
    | _ => none

def run (p : Pool I L R S) : List (Move L sys.Choice sys.Event) → Option (Pool I L R S)
  | [] => some p
  | m :: rest => (sys.advance p m).bind fun q => run q rest

def Admits (ok : sys.Choice → Nat → (o : I.Op) → S → Prop) (p : Pool I L R S) :
    Move L sys.Choice sys.Event → Prop
  | .step i c => ∀ l o k, p.threads[i]? = some ⟨l, .op o k⟩ → ok c i o p.state
  | _ => True

inductive Reaches (ok : sys.Choice → Nat → (o : I.Op) → S → Prop) (p : Pool I L R S) : Pool I L R S → Prop
  | refl : Reaches ok p p
  | step {q q' : Pool I L R S} (m : Move L sys.Choice sys.Event) :
    Reaches ok p q → sys.Admits ok q m → sys.advance q m = some q' → Reaches ok p q'

def always : sys.Choice → Nat → (o : I.Op) → S → Prop := fun _ _ _ _ => True

variable {sys}

theorem Reaches.trans {ok : sys.Choice → Nat → (o : I.Op) → S → Prop} {p q r : Pool I L R S}
    (hpq : sys.Reaches ok p q) (hqr : sys.Reaches ok q r) : sys.Reaches ok p r := by
  induction hqr with
  | refl => exact hpq
  | step m _ hallows hstep ih => exact .step m ih hallows hstep

theorem reaches_of_run {p q : Pool I L R S} {moves : List (Move L sys.Choice sys.Event)}
    (h : sys.run p moves = some q) : sys.Reaches sys.always p q := by
  induction moves generalizing p with
  | nil =>
    cases h
    exact .refl
  | cons m rest ih =>
    obtain ⟨p', hstep, hrun⟩ := Option.bind_eq_some_iff.mp h
    refine Reaches.trans (.step m .refl ?_ hstep) (ih hrun)
    cases m <;> simp [Admits, always]

variable (sys) in
def passes (check : sys.Choice → Nat → I.Op → S → Bool) (p : Pool I L R S) : Move L sys.Choice sys.Event → Bool
  | .step i c =>
    match p.threads[i]? with
    | some ⟨_, .op o _⟩ => check c i o p.state
    | _ => true
  | _ => true

variable (sys) in
def checkedRun (check : sys.Choice → Nat → I.Op → S → Bool) (p : Pool I L R S) :
    List (Move L sys.Choice sys.Event) → Option (Pool I L R S)
  | [] => some p
  | m :: rest =>
    if sys.passes check p m = true then (sys.advance p m).bind fun q => checkedRun check q rest else none

theorem reaches_of_checkedRun {ok : sys.Choice → Nat → (o : I.Op) → S → Prop}
    {check : sys.Choice → Nat → I.Op → S → Bool} (hcheck : ∀ c i o s, check c i o s = true → ok c i o s)
    {p q : Pool I L R S} {moves : List (Move L sys.Choice sys.Event)} (h : sys.checkedRun check p moves = some q) :
    sys.Reaches ok p q := by
  induction moves generalizing p with
  | nil =>
    cases h
    exact .refl
  | cons m rest ih =>
    rw [checkedRun] at h
    split at h
    · next hpass =>
      obtain ⟨p', hstep, hrun⟩ := Option.bind_eq_some_iff.mp h
      refine Reaches.trans (.step m .refl ?_ hstep) (ih hrun)
      cases m with
      | start l => trivial
      | env e => trivial
      | step i c =>
        intro l o k hthread
        rw [passes, hthread] at hpass
        exact hcheck c i o _ hpass
    · cases h

theorem advance_cases {p q : Pool I L R S} {m : Move L sys.Choice sys.Event} (h : sys.advance p m = some q) :
    (∃ l, m = .start l ∧ sys.external l = true ∧ q = sys.launch l p) ∨
    (∃ e s, m = .env e ∧ sys.env e p.state = some s ∧ q = { p with state := s }) ∨
    (∃ i c l o k r s, m = .step i c ∧ p.threads[i]? = some ⟨l, .op o k⟩ ∧
      sys.exec c i o p.state = some (r, s) ∧ q = ⟨sys.settle i (k r) s, p.threads.set i ⟨l, k r⟩⟩) ∨
    ∃ i c l child k, m = .step i c ∧ p.threads[i]? = some ⟨l, .fork child k⟩ ∧
      q = sys.launch child ⟨sys.settle i k (sys.forked i p.threads.length child p.state),
        p.threads.set i ⟨l, k⟩⟩ := by
  cases m with
  | start l =>
    simp only [advance] at h
    split at h
    · next hext => exact .inl ⟨l, rfl, hext, by simpa using h.symm⟩
    · simp at h
  | env e =>
    obtain ⟨s, hs, rfl⟩ := Option.map_eq_some_iff.mp h
    exact .inr (.inl ⟨e, s, rfl, hs, rfl⟩)
  | step i c =>
    simp only [advance] at h
    split at h
    · next l o k hi =>
      split at h
      · next r s hexec =>
        exact .inr (.inr (.inl ⟨i, c, l, o, k, r, s, rfl, hi, hexec, by simpa using h.symm⟩))
      · simp at h
    · next l child k hi =>
      exact .inr (.inr (.inr ⟨i, c, l, child, k, rfl, hi, by simpa using h.symm⟩))
    · simp at h

theorem Reaches.relates {ok : sys.Choice → Nat → (o : I.Op) → S → Prop} {p q : Pool I L R S}
    (rel : S → S → Prop) (hrefl : ∀ s, rel s s) (htrans : ∀ s₁ s₂ s₃, rel s₁ s₂ → rel s₂ s₃ → rel s₁ s₃)
    (hexec : ∀ c i o s r s', ok c i o s → sys.exec c i o s = some (r, s') → rel s s')
    (hforked : ∀ i j l s, rel s (sys.forked i j l s)) (hreturned : ∀ i s, rel s (sys.returned i s))
    (henv : ∀ e s s', sys.env e s = some s' → rel s s') (h : sys.Reaches ok p q) :
    rel p.state q.state := by
  have hsettle : ∀ i (prog : Prog I L R) s, rel s (sys.settle i prog s) := by
    intro i prog s
    cases prog with
    | ret a => exact hreturned i s
    | op o k | fork l k => exact hrefl s
  induction h with
  | refl => exact hrefl _
  | step m _ hallows hstep ih =>
    refine htrans _ _ _ ih ?_
    rcases advance_cases hstep with ⟨l, -, -, rfl⟩ | ⟨e, s, -, hs, rfl⟩ |
      ⟨i, c, l, o, k, r, s, rfl, hi, hs, rfl⟩ | ⟨i, c, l, child, k, -, -, rfl⟩
    · exact hsettle _ _ _
    · exact henv e _ s hs
    · exact htrans _ _ _ (hexec c i o _ r s (hallows l o k hi) hs) (hsettle i (k r) s)
    · exact htrans _ _ _ (htrans _ _ _ (hforked i _ child _) (hsettle i k _)) (hsettle _ _ _)

end System

end Interleave
