import Overture.Lib.StepLaws

/-!
# The limit on concurrent requests

A counter, in memory or in Redis, stands for the admitted requests that are not finished. A reset and an expiry change
the counter and leave the requests.
-/

namespace Overture.ConcurrentLimiter

open StepLaws

/-- `loaded`: an acquire in memory holds the lock and has found the counter below the limit. `clamping`: releases in
memory that have seen a negative count and not yet stored zero. -/
structure State where
  counter : Option Int := none
  active : Nat := 0
  clamping : Nat := 0
  loaded : Bool := false
  disturbed : Bool := false

inductive Event where
  | acquire
  | increment
  | release
  | clamp
  | reset
  | expire

def State.count (s : State) : Int := s.counter.getD 0

def State.admit (s : State) : State :=
  { s with counter := some (s.count + 1), active := s.active + 1, loaded := false }

variable (useRedis : Bool) (limit : Nat)

def acquire (s : State) : State :=
  if useRedis then if s.count < limit then s.admit else s
  else if s.loaded then s
  else { s with counter := some s.count, loaded := s.count < limit }

def release (s : State) : State :=
  if s.active = 0 then s
  else if useRedis then { s with counter := some (max (s.count - 1) 0), active := s.active - 1 }
  else
    { s with
      counter := s.counter.map (· - 1), active := s.active - 1
      clamping := if s.counter.any (· ≤ 0) then s.clamping + 1 else s.clamping }

def step (s : State) : Event → State
  | .acquire => acquire useRedis limit s
  | .increment => if s.loaded then s.admit else s
  | .release => release useRedis s
  | .clamp => if s.clamping = 0 then s else { s with counter := some 0, clamping := s.clamping - 1 }
  | .reset =>
    if useRedis then { s with counter := none, disturbed := true }
    else if s.loaded then s
    else { s with counter := s.counter.map fun _ => 0, disturbed := true }
  | .expire => if useRedis then { s with counter := none, disturbed := true } else s

/-- At most as many requests as the limit allows are in progress, and undisturbed the counter is their number. -/
def Counted (s : State) : Prop := s.active ≤ limit ∧ (s.disturbed = false → s.count = s.active)

def Admits (s : State) : Event → Prop
  | .acquire => useRedis = true ∧ s.count < limit
  | .increment => s.loaded = true
  | _ => False

def Faithful (s : State) : Prop := s.disturbed = false → s.count = s.active ∧ s.clamping = 0

def Sound (s : State) : Prop := s.active ≤ limit ∧ Faithful s

variable {useRedis limit}

theorem Faithful.step {s : State} (h : Faithful s) (e : Event) : Faithful (step useRedis limit s e) := by
  cases e <;> cases hcounter : s.counter <;>
    grind [ConcurrentLimiter.step, Faithful, acquire, release, State.admit, State.count]

theorem active_step_le_iff {s : State} (h : s.active ≤ limit) (e : Event) :
    (step useRedis limit s e).active ≤ limit ↔ (Admits useRedis limit s e → s.active < limit) := by
  cases e <;> grind [step, acquire, release, State.admit, Admits]

/-- Until a reset or an expiry hits the counter, no interleaving lets in more than the limit. -/
theorem counted_unless_disturbed (useRedis : Bool) (limit : Nat) (events : List Event) :
    let s := after (step useRedis limit) {} events
    s.disturbed = true ∨ s.active ≤ limit ∧ s.count = s.active := by
  intro s
  have hrun : Faithful s ∧ (s.disturbed = false → s.active ≤ limit ∧ (s.loaded = true → s.count < limit)) := by
    induction events with
    | nil => exact ⟨fun _ => ⟨rfl, rfl⟩, fun _ => ⟨Nat.zero_le _, by simp [s, after]⟩⟩
    | cons e past ih =>
      refine ⟨ih.1.step e, ?_⟩
      obtain ⟨hfaithful, hbound⟩ := ih
      simp only [s, after]
      generalize after (step useRedis limit) {} past = t at hfaithful hbound
      cases e <;> cases hcounter : t.counter <;>
        grind [step, Faithful, acquire, release, State.admit, State.count]
  rw [or_iff_not_imp_left, Bool.not_eq_true]
  exact fun hcalm => ⟨(hrun.2 hcalm).1, (hrun.1 hcalm).1⟩

end Overture.ConcurrentLimiter
