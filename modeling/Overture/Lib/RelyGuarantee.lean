import Overture.Lib.Interleave

/-!
# Rely and guarantee

A thread is verified alone: between two of its operations the state may change as the rely
relation of the thread allows, and each of its own operations has to stay within its
guarantee. What is shown of one thread then holds of it in every pool.
-/

namespace Interleave

variable {I : Interface} {L R S : Type}

/-- The obligations of the threads. `fresh n`: no thread from `n` on has left a trace in the state. `atOp` is claimed
of a thread about to execute an operation; `start` and `post` hold when a thread starts and after it has returned. -/
structure Rules (sys : System I L R S) where
  ok : sys.Choice → Nat → (o : I.Op) → S → Prop
  inv : S → Prop
  (rely guar : Nat → S → S → Prop)
  fresh : Nat → S → Prop
  atOp : Nat → I.Op → S → Prop
  start : L → Nat → S → Prop
  post : L → Nat → R → S → Prop

namespace Rules

variable {sys : System I L R S} (ρ : Rules sys)

/-- The program meets the obligations of thread `i` from the state on and ends as `Q` says. -/
def Wp (i : Nat) {α : Type} (Q : α → S → Prop) : Prog I L α → S → Prop
  | .ret a, s => Q a s
  | .op o k, s => ∀ s₁, ρ.rely i s s₁ → ρ.inv s₁ → ρ.atOp i o s₁ ∧
      ∀ c r s₂, ρ.ok c i o s₁ → sys.exec c i o s₁ = some (r, s₂) → ρ.guar i s₁ s₂ ∧ Wp i Q (k r) s₂
  | .fork l k, s => ∀ s₁, ρ.rely i s s₁ → ρ.inv s₁ → ∀ j, i < j → ρ.fresh j s₁ →
      ρ.guar i s₁ (sys.forked i j l s₁) ∧ ρ.start l j (sys.forked i j l s₁) ∧
        Wp i Q k (sys.forked i j l s₁)

def Final (i : Nat) (l : L) (a : R) (s : S) : Prop :=
  ρ.guar i s (sys.returned i s) ∧ ρ.post l i a (sys.returned i s)

structure Lawful : Prop where
  rely_refl : ∀ i s, ρ.rely i s s
  rely_trans : ∀ i s₁ s₂ s₃, ρ.rely i s₁ s₂ → ρ.rely i s₂ s₃ → ρ.rely i s₁ s₃
  guar_rely : ∀ i j s s', i ≠ j → ρ.guar i s s' → ρ.rely j s s'
  guar_inv : ∀ i s s', ρ.inv s → ρ.guar i s s' → ρ.inv s'
  env_rely : ∀ e s s', ρ.inv s → sys.env e s = some s' → ∀ i, ρ.rely i s s'
  env_inv : ∀ e s s', ρ.inv s → sys.env e s = some s' → ρ.inv s'
  fresh_le : ∀ m n s, m ≤ n → ρ.fresh m s → ρ.fresh n s
  fresh_guar : ∀ i n s s', i < n → ρ.fresh n s → ρ.guar i s s' → ρ.fresh n s'
  fresh_fork : ∀ i j l s, i < j → ρ.fresh j s → ρ.fresh (j + 1) (sys.forked i j l s)
  fresh_env : ∀ e n s s', ρ.inv s → sys.env e s = some s' → ρ.fresh n s → ρ.fresh n s'
  start_rely : ∀ l j s s', ρ.inv s → ρ.start l j s → ρ.rely j s s' → ρ.start l j s'
  external_start : ∀ l j s, sys.external l = true → ρ.inv s → ρ.fresh j s → ρ.start l j s
  post_rely : ∀ l i a s s', ρ.inv s → ρ.post l i a s → ρ.rely i s s' → ρ.post l i a s'
  body_wp : ∀ l j s, ρ.inv s → ρ.start l j s → ρ.Wp j (ρ.Final j l) (sys.body l) s

variable {ρ}

theorem Wp.bind {i : Nat} {α β : Type} {Q : β → S → Prop} {p : Prog I L α} {f : α → Prog I L β} {s : S}
    (h : ρ.Wp i (fun a s => ρ.Wp i Q (f a) s) p s) : ρ.Wp i Q (p.bind f) s := by
  induction p generalizing s with
  | ret a => exact h
  | op o k ih =>
    intro s₁ hrely hinv
    obtain ⟨hat, hstep⟩ := h s₁ hrely hinv
    refine ⟨hat, fun c r s₂ hok hexec => ?_⟩
    obtain ⟨hguar, hwp⟩ := hstep c r s₂ hok hexec
    exact ⟨hguar, ih r hwp⟩
  | fork l k ih =>
    intro s₁ hrely hinv j hj hfresh
    obtain ⟨hguar, hstart, hwp⟩ := h s₁ hrely hinv j hj hfresh
    exact ⟨hguar, hstart, ih hwp⟩

theorem Wp.mono {i : Nat} {α : Type} {Q Q' : α → S → Prop} {p : Prog I L α} {s : S}
    (h : ρ.Wp i Q p s) (hQ : ∀ a s, Q a s → Q' a s) : ρ.Wp i Q' p s := by
  induction p generalizing s with
  | ret a => exact hQ a s h
  | op o k ih =>
    intro s₁ hrely hinv
    obtain ⟨hat, hstep⟩ := h s₁ hrely hinv
    refine ⟨hat, fun c r s₂ hok hexec => ?_⟩
    obtain ⟨hguar, hwp⟩ := hstep c r s₂ hok hexec
    exact ⟨hguar, ih r hwp⟩
  | fork l k ih =>
    intro s₁ hrely hinv j hj hfresh
    obtain ⟨hguar, hstart, hwp⟩ := h s₁ hrely hinv j hj hfresh
    exact ⟨hguar, hstart, ih hwp⟩

theorem Wp.relates {i : Nat} {α : Type} {Q : α → S → Prop} {p : Prog I L α} {s : S} {rel : S → S → Prop}
    (hrefl : ∀ s, rel s s) (htrans : ∀ s₁ s₂ s₃, rel s₁ s₂ → rel s₂ s₃ → rel s₁ s₃)
    (hrely : ∀ s s', ρ.rely i s s' → rel s s') (hguar : ∀ s s', ρ.guar i s s' → rel s s') (h : ρ.Wp i Q p s) :
    ρ.Wp i (fun a s' => rel s s' ∧ Q a s') p s := by
  induction p generalizing s with
  | ret a => exact ⟨hrefl s, h⟩
  | op o k ih =>
    intro s₁ hs₁ hinv
    obtain ⟨hat, hstep⟩ := h s₁ hs₁ hinv
    refine ⟨hat, fun c r s₂ hok hexec => ?_⟩
    obtain ⟨hs₂, hwp⟩ := hstep c r s₂ hok hexec
    refine ⟨hs₂, (ih r hwp).mono ?_⟩
    rintro a s' ⟨hs', hQ⟩
    exact ⟨htrans _ _ _ (hrely s s₁ hs₁) (htrans _ _ _ (hguar s₁ s₂ hs₂) hs'), hQ⟩
  | fork l k ih =>
    intro s₁ hs₁ hinv j hj hfresh
    obtain ⟨hs₂, hstart, hwp⟩ := h s₁ hs₁ hinv j hj hfresh
    refine ⟨hs₂, hstart, (ih hwp).mono ?_⟩
    rintro a s' ⟨hs', hQ⟩
    exact ⟨htrans _ _ _ (hrely s s₁ hs₁) (htrans _ _ _ (hguar _ _ hs₂) hs'), hQ⟩

variable (ρ) in
def Good (i : Nat) (th : Thread I L R) (s : S) : Prop :=
  match th.prog with
  | .ret a => ρ.post th.label i a s
  | p => ρ.Wp i (ρ.Final i th.label) p s

namespace Lawful

variable (h : ρ.Lawful)
include h

theorem good_rely {i : Nat} {th : Thread I L R} {s s' : S} (hinv : ρ.inv s) (hgood : ρ.Good i th s)
    (hrely : ρ.rely i s s') : ρ.Good i th s' := by
  obtain ⟨l, p⟩ := th
  cases p with
  | ret a => exact h.post_rely l i a s s' hinv hgood hrely
  | op o k | fork child k => exact fun s₁ hs₁ => hgood s₁ (h.rely_trans i s s' s₁ hrely hs₁)

omit h in
theorem good_settle {i : Nat} {l : L} {p : Prog I L R} {s : S} (hwp : ρ.Wp i (ρ.Final i l) p s) :
    ρ.Good i ⟨l, p⟩ (sys.settle i p s) ∧ (sys.settle i p s = s ∨ ρ.guar i s (sys.settle i p s)) := by
  cases p with
  | ret a => exact ⟨hwp.2, .inr hwp.1⟩
  | op o k | fork child k => exact ⟨hwp, .inl rfl⟩

theorem good_set {i : Nat} {l : L} {p' : Prog I L R} {threads : List (Thread I L R)} {s s' : S}
    (hinv : ρ.inv s) (hgood : ∀ j th, threads[j]? = some th → ρ.Good j th s)
    (hguar : ρ.guar i s s') (hwp : ρ.Wp i (ρ.Final i l) p' s') :
    ρ.inv (sys.settle i p' s') ∧
      ∀ j th, (threads.set i ⟨l, p'⟩)[j]? = some th → ρ.Good j th (sys.settle i p' s') := by
  have hinv' := h.guar_inv i s s' hinv hguar
  obtain ⟨hmoved, hsettle⟩ := good_settle hwp
  have hrely : ∀ j, i ≠ j → ρ.rely j s (sys.settle i p' s') := by
    intro j hj
    refine h.rely_trans j _ _ _ (h.guar_rely i j s s' hj hguar) ?_
    rcases hsettle with heq | hguar'
    · rw [heq]
      exact h.rely_refl j s'
    · exact h.guar_rely i j _ _ hj hguar'
  refine ⟨?_, fun j th hj => ?_⟩
  · rcases hsettle with heq | hguar'
    · rwa [heq]
    · exact h.guar_inv i _ _ hinv' hguar'
  rw [List.getElem?_set] at hj
  split at hj
  · next hij =>
    subst hij
    split at hj
    · cases hj
      exact hmoved
    · simp at hj
  · next hij => exact h.good_rely hinv (hgood j th hj) (hrely j hij)

end Lawful

variable (ρ) in
structure Sound (p : Pool I L R S) : Prop where
  inv : ρ.inv p.state
  fresh : ρ.fresh p.threads.length p.state
  good : ∀ i th, p.threads[i]? = some th → ρ.Good i th p.state

namespace Lawful

variable (h : ρ.Lawful)
include h

variable {p q : Pool I L R S}

theorem sound_launch {l : L} (hinv : ρ.inv p.state)
    (hfresh : ρ.fresh (p.threads.length + 1) p.state)
    (hgood : ∀ i th, p.threads[i]? = some th → ρ.Good i th p.state)
    (hstart : ρ.start l p.threads.length p.state) : ρ.Sound (sys.launch l p) := by
  obtain ⟨hnew, hsettle⟩ := good_settle (h.body_wp l _ _ hinv hstart)
  have hold : ∀ i th, p.threads[i]? = some th → ρ.Good i th (sys.launch l p).state := by
    intro i th hi
    rcases hsettle with heq | hguar
    · rw [System.launch, heq]
      exact hgood i th hi
    · have hlt := (List.getElem?_eq_some_iff.mp hi).1
      exact h.good_rely hinv (hgood i th hi) (h.guar_rely _ i _ _ (by omega) hguar)
  refine ⟨?_, ?_, fun i th hi => ?_⟩
  · rcases hsettle with heq | hguar
    · rwa [System.launch, heq]
    · exact h.guar_inv _ _ _ hinv hguar
  · rw [System.launch, List.length_append, List.length_singleton]
    rcases hsettle with heq | hguar
    · rwa [heq]
    · exact h.fresh_guar _ _ _ _ (by omega) hfresh hguar
  rw [System.launch, List.getElem?_append] at hi
  split at hi
  · exact hold i th hi
  next hge =>
  obtain ⟨hi', rfl⟩ := List.getElem?_eq_some_iff.mp hi
  obtain rfl : i = p.threads.length := by simp at hi'; omega
  simpa [System.launch] using hnew

theorem sound_advance {m : Move L sys.Choice sys.Event} (hp : ρ.Sound p)
    (hallows : sys.Admits ρ.ok p m) (hstep : sys.advance p m = some q) : ρ.Sound q := by
  obtain ⟨hinv, hfresh, hgood⟩ := hp
  rcases System.advance_cases hstep with ⟨l, -, hext, rfl⟩ | ⟨e, s, -, hs, rfl⟩ |
    ⟨i, c, l, o, k, r, s, rfl, hi, hs, rfl⟩ | ⟨i, c, l, child, k, -, hi, rfl⟩
  · exact h.sound_launch hinv (h.fresh_le _ _ _ (by omega) hfresh) hgood
      (h.external_start l _ _ hext hinv hfresh)
  · exact ⟨h.env_inv e _ _ hinv hs, h.fresh_env e _ _ _ hinv hs hfresh,
      fun i th hi => h.good_rely hinv (hgood i th hi) (h.env_rely e _ _ hinv hs i)⟩
  · have hlt := (List.getElem?_eq_some_iff.mp hi).1
    obtain ⟨-, hop⟩ := hgood i _ hi p.state (h.rely_refl i _) hinv
    obtain ⟨hguar, hwp⟩ := hop c r s (hallows l o k hi) hs
    obtain ⟨hinv', hgood'⟩ := h.good_set hinv hgood hguar hwp
    refine ⟨hinv', ?_, hgood'⟩
    rw [List.length_set]
    have hfresh' := h.fresh_guar i _ _ _ hlt hfresh hguar
    rcases (good_settle hwp).2 with heq | hguar'
    · rwa [heq]
    · exact h.fresh_guar i _ _ _ hlt hfresh' hguar'
  · have hlt := (List.getElem?_eq_some_iff.mp hi).1
    obtain ⟨hguar, hstart, hwp⟩ := hgood i _ hi p.state (h.rely_refl i _) hinv _ hlt hfresh
    obtain ⟨hinv', hgood'⟩ := h.good_set hinv hgood hguar hwp
    have hfresh' := h.fresh_fork i _ child _ hlt hfresh
    have hforked := h.guar_inv i _ _ hinv hguar
    refine h.sound_launch hinv' ?_ hgood' ?_
    · rw [List.length_set]
      rcases (good_settle hwp).2 with heq | hguar'
      · rwa [heq]
      · exact h.fresh_guar i _ _ _ (by omega) hfresh' hguar'
    rw [List.length_set]
    rcases (good_settle hwp).2 with heq | hguar'
    · rwa [heq]
    · exact h.start_rely child _ _ _ hforked hstart (h.guar_rely i _ _ _ (by omega) hguar')

theorem sound_reaches (hp : ρ.Sound p) (hr : sys.Reaches ρ.ok p q) : ρ.Sound q := by
  induction hr with
  | refl => exact hp
  | step m _ hallows hstep ih => exact h.sound_advance ih hallows hstep

theorem atOp_of_sound (hp : ρ.Sound p) {i : Nat} {l : L} {o : I.Op}
    {k : I.Res o → Prog I L R} (hi : p.threads[i]? = some ⟨l, .op o k⟩) : ρ.atOp i o p.state :=
  (hp.good i _ hi p.state (h.rely_refl i _) hp.inv).1

/-- What every operation preserves where its claim holds, a whole run preserves. The moves of the run may be
restricted further than the rules require. -/
theorem invariant_of_reaches {ok : sys.Choice → Nat → (o : I.Op) → S → Prop} {J : S → Prop}
    (hok : ∀ c i o s, ok c i o s → ρ.ok c i o s)
    (hexec : ∀ c i o s r s', ok c i o s → ρ.atOp i o s → J s → sys.exec c i o s = some (r, s') → J s')
    (hforked : ∀ i j l s, J s → J (sys.forked i j l s)) (hreturned : ∀ i s, J s → J (sys.returned i s))
    (henv : ∀ e s s', J s → sys.env e s = some s' → J s') (hp : ρ.Sound p) (hJ : J p.state)
    (hr : sys.Reaches ok p q) : J q.state := by
  have hsettle : ∀ i (prog : Prog I L R) s, J s → J (sys.settle i prog s) := by
    intro i prog s hs
    cases prog with
    | ret a => exact hreturned i s hs
    | op o k => exact hs
    | fork l k => exact hs
  suffices h' : ρ.Sound q ∧ J q.state from h'.2
  induction hr with
  | refl => exact ⟨hp, hJ⟩
  | @step q q' m _ hallows hstep ih =>
    obtain ⟨hsound, hq⟩ := ih
    have hallows' : sys.Admits ρ.ok q m := by
      cases m with
      | step i c => exact fun l o k hi => hok c i o _ (hallows l o k hi)
      | start l => trivial
      | env e => trivial
    refine ⟨h.sound_advance hsound hallows' hstep, ?_⟩
    rcases System.advance_cases hstep with ⟨l, -, -, rfl⟩ | ⟨e, s, -, hs, rfl⟩ |
      ⟨i, c, l, o, k, r, s, rfl, hi, hs, rfl⟩ | ⟨i, c, l, child, k, -, -, rfl⟩
    · exact hsettle _ _ _ hq
    · exact henv e _ s hq hs
    · exact hsettle _ _ _ (hexec c i o _ r s (hallows l o k hi) (h.atOp_of_sound hsound hi) hq hs)
    · exact hsettle _ _ _ (hsettle _ _ _ (hforked i _ child _ hq))

end Lawful

end Rules

end Interleave
