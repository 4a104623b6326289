import Overture.Internal.RuntimeSelector
import Overture.Lib.StepLaws

/-!
# Requests behind a circuit breaker

A breaker is asked before a request is sent and is told later how the request went. A report does not say which
admission it belongs to, and a half-open breaker admits every request.
-/

namespace Overture.Selector.BreakerRuns

open StepLaws CircuitBreaker

inductive Call where
  | allow (now : Int)
  | success (i : Nat)
  | failure (i : Nat) (now : Int)

/-- The breaker with the requests that were admitted and have not reported. The breaker is on trial each time it becomes
half-open; a request is known by the trial it was admitted in or after. -/
structure Run where
  breaker : CircuitBreaker
  outstanding : List Nat
  trial : Nat
  /-- What requests of this trial have reported in a row. -/
  successes : Nat

def start (config : BreakerConfig) : Run := ⟨newCircuitBreaker config, [], 0, 0⟩

def Run.step (s : Run) : Call → Run
  | .allow now =>
    let (admitted, breaker) := s.breaker.allow now
    let s := if s.breaker.state = .isOpen ∧ admitted then { s with trial := s.trial + 1, successes := 0 } else s
    { s with breaker, outstanding := if admitted then s.trial :: s.outstanding else s.outstanding }
  | .success i =>
    match s.outstanding[i]? with
    | none => s
    | some t => ⟨s.breaker.recordSuccess, s.outstanding.eraseIdx i, s.trial,
        if t = s.trial then s.successes + 1 else s.successes⟩
  | .failure i now =>
    match s.outstanding[i]? with
    | none => s
    | some _ => ⟨s.breaker.recordFailure now, s.outstanding.eraseIdx i, s.trial, 0⟩

structure Lawful (s : Run) (call : Call) : Prop where
  single : (s.step call).breaker.state = .halfOpen → (s.step call).outstanding.length ≤ 1
  closing : s.breaker.state = .halfOpen → (s.step call).breaker.state = .closed → 2 ≤ (s.step call).successes
  shut : ∀ now, call = .allow now → s.breaker.state = .isOpen →
    now - s.breaker.lastFailureTime < s.breaker.recoveryTimeout → s.step call = s

/-- A breaker that is or becomes half-open is asked only when every admitted request has reported. -/
def OneAtATime (s : Run) : Call → Prop
  | .allow now => s.breaker.state = .halfOpen ∨ (s.breaker.state = .isOpen ∧
      s.breaker.recoveryTimeout ≤ now - s.breaker.lastFailureTime) → s.outstanding = []
  | _ => True

variable {s : Run} {call : Call}

theorem step_allow (s : Run) (now : Int) :
    (s.breaker.state ≠ .isOpen ∧ s.step (.allow now) = { s with outstanding := s.trial :: s.outstanding }) ∨
    (s.breaker.state = .isOpen ∧ s.breaker.recoveryTimeout ≤ now - s.breaker.lastFailureTime ∧
      s.step (.allow now) = ⟨{ s.breaker with state := .halfOpen, successCount := 0, failureCount := 0 },
        (s.trial + 1) :: s.outstanding, s.trial + 1, 0⟩) ∨
    (s.breaker.state = .isOpen ∧ now - s.breaker.lastFailureTime < s.breaker.recoveryTimeout ∧
      s.step (.allow now) = s) := by
  cases hstate : s.breaker.state with
  | closed | halfOpen => simp [Run.step, allow, hstate]
  | isOpen =>
    by_cases hpast : s.breaker.recoveryTimeout ≤ now - s.breaker.lastFailureTime
    · simp [Run.step, allow, hstate, hpast]
    · simp [Run.step, allow, hstate, hpast, not_le.mp hpast]

theorem recordFailure_state (b : CircuitBreaker) (now : Int) : (b.recordFailure now).state = .isOpen ∨
    (b.state = .closed ∧ (b.recordFailure now).state = .closed) := by
  unfold recordFailure
  split
  · next hstate =>
    dsimp only
    split
    · exact .inl rfl
    · exact .inr ⟨hstate, rfl⟩
  · next hstate => exact .inl hstate
  · exact .inl rfl

theorem recordSuccess_cases (b : CircuitBreaker) : (b.state ≠ .halfOpen ∧ b.recordSuccess.state = b.state) ∨
    (b.state = .halfOpen ∧ 1 ≤ b.successCount ∧ b.recordSuccess.state = .closed) ∨
    (b.state = .halfOpen ∧ b.recordSuccess = { b with successCount := b.successCount + 1 }) := by
  unfold recordSuccess
  split
  · next hstate => exact .inl ⟨by simp [hstate], rfl⟩
  · next hstate => exact .inl ⟨by simp [hstate], rfl⟩
  next hstate =>
  split
  · next hmany => exact .inr (.inl ⟨hstate, by omega, rfl⟩)
  · exact .inr (.inr ⟨hstate, rfl⟩)

/-- On trial, at most one request is outstanding, it belongs to the trial, and the successes counted were reported by
requests of the trial. -/
def Sound (s : Run) : Prop :=
  s.breaker.state = .halfOpen → s.outstanding.length ≤ 1 ∧ (∀ t ∈ s.outstanding, t = s.trial) ∧
    s.breaker.successCount ≤ s.successes

/-- What is left of the outstanding requests when one of a trial has reported. -/
theorem Sound.report (h : Sound s) (hstate : s.breaker.state = .halfOpen) {i t : Nat}
    (ht : s.outstanding[i]? = some t) : t = s.trial ∧ s.outstanding.eraseIdx i = [] := by
  obtain ⟨hlength, htrial, -⟩ := h hstate
  refine ⟨htrial t (List.mem_of_getElem? ht), List.length_eq_zero_iff.mp ?_⟩
  have hi := (List.getElem?_eq_some_iff.mp ht).1
  rw [List.length_eraseIdx_of_lt hi]
  omega

theorem Sound.allow (h : Sound s) {now : Int} (hcall : OneAtATime s (.allow now)) :
    Lawful s (.allow now) ∧ Sound (s.step (.allow now)) := by
  rcases step_allow s now with ⟨hstate, heq⟩ | ⟨hstate, hpast, heq⟩ | ⟨hstate, -, heq⟩
  · have hnone := fun hhalf => hcall (.inl hhalf)
    refine ⟨⟨?_, ?_, ?_⟩, fun hhalf => ?_⟩ <;> simp_all [Sound]
  · have hnone := hcall (.inr ⟨hstate, hpast⟩)
    refine ⟨⟨by simp [heq, hnone], by simp [hstate], ?_⟩, by simp [Sound, heq, hnone]⟩
    intro now' hnow _ hbefore
    cases hnow
    omega
  · refine ⟨⟨?_, ?_, ?_⟩, ?_⟩ <;> simp [Sound, heq, hstate]

theorem Sound.unchanged (h : Sound s) (heq : s.step call = s) (hcall : ∀ now, call ≠ .allow now) :
    Lawful s call ∧ Sound (s.step call) := by
  refine ⟨⟨fun hstate => ?_, fun hstate hclosed => ?_, fun now hnow => absurd hnow (hcall now)⟩, heq.symm ▸ h⟩
  · rw [heq] at hstate ⊢
    exact (h hstate).1
  · rw [heq, hstate] at hclosed
    cases hclosed

theorem Sound.success (h : Sound s) (i : Nat) : Lawful s (.success i) ∧ Sound (s.step (.success i)) := by
  cases ht : s.outstanding[i]? with
  | none => exact h.unchanged (by rw [Run.step, ht]) nofun
  | some t =>
    have heq : s.step (.success i) = ⟨s.breaker.recordSuccess, s.outstanding.eraseIdx i, s.trial,
        if t = s.trial then s.successes + 1 else s.successes⟩ := by rw [Run.step, ht]
    rcases recordSuccess_cases s.breaker with ⟨hstate, hsame⟩ | ⟨hstate, hcount, hclosed⟩ | ⟨hstate, hcounted⟩
    · refine ⟨⟨?_, fun hhalf => absurd hhalf hstate, nofun⟩, ?_⟩ <;> simp [Sound, heq, hsame, hstate]
    · obtain ⟨rfl, -⟩ := h.report hstate ht
      have hsuccesses := (h hstate).2.2
      refine ⟨⟨by simp [heq, hclosed], ?_, nofun⟩, by simp [Sound, heq, hclosed]⟩
      intro _ _
      rw [heq, if_pos rfl]
      change 2 ≤ s.successes + 1
      omega
    · obtain ⟨rfl, hnone⟩ := h.report hstate ht
      refine ⟨⟨by simp [heq, hnone], by simp [heq, hcounted, hstate], nofun⟩, ?_⟩
      simp [Sound, heq, hcounted, hnone, (h hstate).2.2]

theorem Sound.failure (h : Sound s) (i : Nat) (now : Int) :
    Lawful s (.failure i now) ∧ Sound (s.step (.failure i now)) := by
  cases ht : s.outstanding[i]? with
  | none => exact h.unchanged (by rw [Run.step, ht]) nofun
  | some t =>
    have heq : s.step (.failure i now) =
        ⟨s.breaker.recordFailure now, s.outstanding.eraseIdx i, s.trial, 0⟩ := by rw [Run.step, ht]
    rcases recordFailure_state s.breaker now with hopen | ⟨hclosed, hsame⟩
    · refine ⟨⟨?_, ?_, nofun⟩, ?_⟩ <;> simp [Sound, heq, hopen]
    · refine ⟨⟨?_, ?_, nofun⟩, ?_⟩ <;> simp [Sound, heq, hsame, hclosed]

theorem Lawful.oneAtATime (h : Lawful s call) : OneAtATime s call := by
  cases call with
  | allow now =>
    intro htried
    have hsingle := h.single
    rcases step_allow s now with ⟨hstate, heq⟩ | ⟨hstate, hpast, heq⟩ | ⟨hstate, hbefore, heq⟩
    · have hhalf := htried.resolve_right fun hopen => hstate hopen.1
      simpa [heq, hhalf] using hsingle
    · simpa [heq] using hsingle
    · simp [hstate] at htried
      omega
  | success i => trivial
  | failure i now => trivial

/-- At most one request is outstanding on a half-open breaker, it closes only after two successes of its trial and
admits nothing before the recovery timeout, exactly when it is asked in a trial only while nothing is outstanding. -/
theorem breaker_runs_lawful_iff (config : BreakerConfig) (calls : List Call) :
    Always Run.step (start config) Lawful calls ↔ Always Run.step (start config) OneAtATime calls := by
  have hsteps : ∀ s call, Sound s → OneAtATime s call → Lawful s call ∧ Sound (s.step call) := by
    intro s call h hcall
    cases call with
    | allow now => exact h.allow hcall
    | success i => exact h.success i
    | failure i now => exact h.failure i now
  refine always_iff ?_ (fun s call h hcall => (hsteps s call h hcall).2) (fun s call h => ?_) calls
  · rintro ⟨⟩
  · exact ⟨Lawful.oneAtATime, fun hcall => (hsteps s call h hcall).1⟩

theorem two_on_trial : ¬Always Run.step (start ⟨1, 5⟩) Lawful [.allow 12, .allow 11, .failure 0 1, .allow 0] := by
  rintro ⟨h, -⟩
  exact absurd (h.single (by decide)) (by decide)

/-- Whatever reports come late, a closed breaker is below its threshold, and a trial that goes on has at most one
success. -/
theorem counts_bounded (config : BreakerConfig) (calls : List Call) :
    let b := (after Run.step (start config) calls).breaker
    b.failureThreshold = (newCircuitBreaker config).failureThreshold ∧
      (b.state = .closed → b.failureCount < b.failureThreshold) ∧
      (b.state = .halfOpen → b.failureCount = 0 ∧ b.successCount ≤ 1) := by
  have hpos : 0 < (newCircuitBreaker config).failureThreshold := by grind [newCircuitBreaker]
  induction calls with
  | nil => grind [after, start, newCircuitBreaker]
  | cons call past ih =>
    rw [after]
    generalize after Run.step (start config) past = s at ih
    cases call with
    | allow now => rcases step_allow s now with ⟨-, heq⟩ | ⟨-, -, heq⟩ | ⟨-, -, heq⟩ <;> grind
    | success i | failure i now => grind [Run.step, recordSuccess, recordFailure]

end Overture.Selector.BreakerRuns
