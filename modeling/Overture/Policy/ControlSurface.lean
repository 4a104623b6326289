import Overture.Lib.StepLaws
import Overture.Lib.Text

/-!
# The control surface for policies

An update is numbered one past the policy in force and is stored under that number; a rollback puts a stored policy
in force again. After a rollback the next number may be one that is already taken.
-/

namespace Overture.PolicyControl

open StepLaws List

inductive Float64 where
  | nan
  | infinite (negative : Bool)
  | finite (value : Rat)
deriving DecidableEq

/-- `x < 0.0 || x > 1.0`. -/
def Float64.outsideUnit : Float64 → Bool
  | .nan => false
  | .infinite _ => true
  | .finite value => value < 0 || 1 < value

structure PolicyUpdate where
  timestamp : Int
  trafficSplit : Float64
  timeoutMS : UInt64
  batchSize : Int
  maxWaitMS : UInt64
  confidence : Float64
  version : UInt32
deriving DecidableEq

def validatePolicyUpdate (update : PolicyUpdate) : Option Text :=
  if update.trafficSplit.outsideUnit then some "invalid traffic_split: must be between 0.0 and 1.0"
  else if update.timeoutMS = 0 ∨ 30000 < update.timeoutMS then some "invalid timeout_ms: must be between 1 and 30000"
  else if update.batchSize < 1 ∨ 256 < update.batchSize then some "invalid batch_size: must be between 1 and 256"
  else if 1000 < update.maxWaitMS then some "invalid max_wait_ms: must be <= 1000"
  else if update.confidence.outsideUnit then some "invalid confidence: must be between 0.0 and 1.0"
  else none

def defaultPolicy (now : Int) : PolicyUpdate where
  timestamp := now
  trafficSplit := .finite (3602879701896397 / 2 ^ 52)
  timeoutMS := 5000
  batchSize := 32
  maxWaitMS := 10
  confidence := .finite 1
  version := 0

structure ControlSurface where
  currentPolicy : PolicyUpdate
  policyHistory : UInt32 → Option PolicyUpdate

def newControlSurface (now : Int) : ControlSurface where
  currentPolicy := defaultPolicy now
  policyHistory := Function.update (fun _ => none) 0 (some (defaultPolicy now))

def handlePolicyUpdate (cs : ControlSurface) (update : PolicyUpdate) (now : Int) :
    Except Text (PolicyUpdate × ControlSurface) :=
  match validatePolicyUpdate update with
  | some message => .error message
  | none =>
    let update := { update with version := cs.currentPolicy.version + 1, timestamp := now }
    .ok (update, ⟨update, Function.update cs.policyHistory update.version (some update)⟩)

def handlePolicyRollback (cs : ControlSurface) (version : UInt32) : Except Text ControlSurface :=
  match cs.policyHistory version with
  | none => .error ("Policy version " ++ (toString version.toNat).toList ++ " not found")
  | some targetPolicy => .ok { cs with currentPolicy := targetPolicy }

inductive Request where
  | update (update : PolicyUpdate) (now : Int)
  | rollback (version : UInt32)

/-- The surface with the policies it has accepted, the last one first. -/
structure Run where
  surface : ControlSurface
  accepted : List PolicyUpdate

def start (now : Int) : Run := ⟨newControlSurface now, [defaultPolicy now]⟩

def Run.step (s : Run) : Request → Run
  | .update update now =>
    match handlePolicyUpdate s.surface update now with
    | .ok (stored, surface) => ⟨surface, stored :: s.accepted⟩
    | .error _ => s
  | .rollback version =>
    match handlePolicyRollback s.surface version with
    | .ok surface => { s with surface }
    | .error _ => s

/-- The number of an accepted update is new, no accepted policy is lost, and a rollback puts the policy in force that
was accepted under its number. -/
structure Lawful (s : Run) (r : Request) : Prop where
  fresh : ((s.step r).accepted.map PolicyUpdate.version).Nodup
  kept : ∀ p ∈ (s.step r).accepted, (s.step r).surface.policyHistory p.version = some p
  restored : ∀ p ∈ s.accepted, r = .rollback p.version → (s.step r).surface.currentPolicy = p

/-- An update comes while the last accepted policy is in force and a number is left. -/
def InOrder (s : Run) : Request → Prop
  | .update update _ => validatePolicyUpdate update = none →
    s.accepted.head? = some s.surface.currentPolicy ∧ s.accepted.length < 2 ^ 32
  | .rollback _ => True

def Numbered (l : List PolicyUpdate) : Prop := l.map (fun p => p.version.toNat) = (range l.length).reverse

variable {l : List PolicyUpdate} {p : PolicyUpdate} {s : Run} {r : Request}

theorem numbered_cons : Numbered (p :: l) ↔ p.version.toNat = l.length ∧ Numbered l := by
  simp [Numbered, range_succ]

theorem Numbered.exists_iff (h : Numbered l) {k : Nat} : (∃ p ∈ l, p.version.toNat = k) ↔ k < l.length := by
  rw [← mem_map, h, mem_reverse, mem_range]

theorem Numbered.lt (h : Numbered l) (hp : p ∈ l) : p.version.toNat < l.length := h.exists_iff.mp ⟨p, hp, rfl⟩

theorem Numbered.nodup (h : Numbered l) : (l.map PolicyUpdate.version).Nodup := by
  apply List.Nodup.of_map UInt32.toNat
  rw [map_map]
  exact h ▸ nodup_reverse.mpr nodup_range

structure Sound (s : Run) : Prop where
  numbered : Numbered s.accepted
  current : s.surface.currentPolicy ∈ s.accepted
  stored : ∀ version p, s.surface.policyHistory version = some p ↔ p ∈ s.accepted ∧ p.version = version

theorem sound_start (now : Int) : Sound (start now) where
  numbered := rfl
  current := mem_singleton.mpr rfl
  stored version p := by
    simp only [start, newControlSurface, Function.update_apply, mem_singleton]
    split_ifs with hversion
    · subst hversion
      rw [Option.some_inj]
      exact ⟨fun heq => ⟨heq.symm, heq ▸ rfl⟩, fun h => h.1.symm⟩
    refine ⟨nofun, ?_⟩
    rintro ⟨rfl, hzero⟩
    exact absurd hzero.symm hversion

theorem step_update {update : PolicyUpdate} (now : Int) (h : validatePolicyUpdate update = none) :
    ∃ p, p.version = s.surface.currentPolicy.version + 1 ∧ s.step (.update update now) =
      ⟨⟨p, Function.update s.surface.policyHistory p.version (some p)⟩, p :: s.accepted⟩ := by
  refine ⟨{ update with version := s.surface.currentPolicy.version + 1, timestamp := now }, rfl, ?_⟩
  rw [Run.step, handlePolicyUpdate, h]

theorem Sound.accept (h : Sound s) (hlast : s.accepted.head? = some s.surface.currentPolicy)
    (hroom : s.accepted.length < 2 ^ 32) (hp : p.version = s.surface.currentPolicy.version + 1) :
    Sound ⟨⟨p, Function.update s.surface.policyHistory p.version (some p)⟩, p :: s.accepted⟩ := by
  have hversion : p.version.toNat = s.accepted.length := by
    obtain ⟨rest, heq⟩ := head?_eq_some_iff.mp hlast
    have hnumbered := h.numbered
    rw [heq] at hnumbered hroom
    rw [hp, UInt32.toNat_add, (numbered_cons.mp hnumbered).1, heq]
    exact Nat.mod_eq_of_lt hroom
  refine ⟨numbered_cons.mpr ⟨hversion, h.numbered⟩, mem_cons_self, ?_⟩
  intro version q
  simp only [Function.update_apply, mem_cons]
  split_ifs with heq
  · subst heq
    refine ⟨fun hq => ?_, ?_⟩
    · cases hq
      exact ⟨.inl rfl, rfl⟩
    rintro ⟨rfl | hq, hsame⟩
    · rfl
    have hlt := h.numbered.lt hq
    rw [hsame, hversion] at hlt
    exact absurd hlt (lt_irrefl _)
  rw [h.stored]
  refine ⟨fun hq => ⟨.inr hq.1, hq.2⟩, ?_⟩
  rintro ⟨rfl | hq, hsame⟩
  · exact absurd hsame.symm heq
  · exact ⟨hq, hsame⟩

theorem Sound.step (h : Sound s) (hr : InOrder s r) : Sound (s.step r) := by
  cases r with
  | update update now =>
    cases hvalid : validatePolicyUpdate update with
    | some message =>
      rw [Run.step, handlePolicyUpdate, hvalid]
      exact h
    | none =>
      obtain ⟨p, hp, heq⟩ := step_update now hvalid
      obtain ⟨hlast, hroom⟩ := hr hvalid
      rw [heq]
      exact h.accept hlast hroom hp
  | rollback version =>
    rw [Run.step, handlePolicyRollback]
    cases hfound : s.surface.policyHistory version with
    | none => exact h
    | some p => exact ⟨h.numbered, ((h.stored version p).mp hfound).1, h.stored⟩

/-- A number given out of order is one that an accepted policy has. -/
theorem Sound.taken (h : Sound s)
    (hr : ¬(s.accepted.head? = some s.surface.currentPolicy ∧ s.accepted.length < 2 ^ 32)) :
    (s.surface.currentPolicy.version + 1).toNat < s.accepted.length := by
  have hlt := h.numbered.lt h.current
  rw [UInt32.toNat_add]
  by_cases hroom : s.accepted.length < 2 ^ 32
  · have hlast : s.accepted.head? ≠ some s.surface.currentPolicy := fun heq => hr ⟨heq, hroom⟩
    have hcurrent := h.current
    have hnumbered := h.numbered
    cases haccepted : s.accepted with
    | nil => simp [haccepted] at hcurrent
    | cons q rest =>
      rw [haccepted] at hlast hcurrent hnumbered
      rcases mem_cons.mp hcurrent with heq | hrest
      · exact absurd (congrArg some heq.symm) hlast
      have hbelow := (numbered_cons.mp hnumbered).2.lt hrest
      rw [length_cons]
      exact (Nat.mod_le _ _).trans_lt (Nat.succ_lt_succ hbelow)
  · exact (Nat.mod_lt _ (by decide)).trans_le (not_lt.mp hroom)

theorem Sound.lawful (h : Sound s) (hr : InOrder s r) : Lawful s r where
  fresh := (h.step hr).numbered.nodup
  kept p hp := ((h.step hr).stored _ p).mpr ⟨hp, rfl⟩
  restored p hp heq := by
    subst heq
    rw [Run.step, handlePolicyRollback, (h.stored _ p).mpr ⟨hp, rfl⟩]

theorem Sound.lawful_iff (h : Sound s) : Lawful s r ↔ InOrder s r := by
  refine ⟨fun hr => ?_, h.lawful⟩
  cases r with
  | rollback version => trivial
  | update update now =>
    intro hvalid
    by_contra hout
    obtain ⟨p, hp, heq⟩ := step_update now hvalid
    obtain ⟨q, hq, hversion⟩ := h.numbered.exists_iff.mpr (h.taken hout)
    have hfresh := hr.fresh
    rw [heq, map_cons, nodup_cons] at hfresh
    apply hfresh.1
    rw [hp, ← UInt32.toNat_inj.mp hversion]
    exact mem_map_of_mem hq

/-- In a run of updates and rollbacks every request keeps the law exactly when every accepted update comes while the
last accepted policy is in force and fewer than `2 ^ 32` were accepted. -/
theorem policy_runs_lawful_iff (now : Int) (requests : List Request) :
    Always Run.step (start now) Lawful requests ↔ Always Run.step (start now) InOrder requests :=
  always_iff (sound_start now) (fun _ _ h => h.step) (fun _ _ h => h.lawful_iff) requests

theorem number_given_twice : ¬Always Run.step (start 0) Lawful [.update (defaultPolicy 0) 3, .rollback 0,
    .update (defaultPolicy 0) 2] := by
  rintro ⟨h, -⟩
  exact absurd h.fresh (by decide +kernel)

/-- The policy in force is stored, and every stored policy passes the check and stands under its own number. -/
structure Stocked (cs : ControlSurface) : Prop where
  inForce : cs.policyHistory cs.currentPolicy.version = some cs.currentPolicy
  stored : ∀ version p, cs.policyHistory version = some p → p.version = version ∧ validatePolicyUpdate p = none

theorem Stocked.store {c : ControlSurface} {p : PolicyUpdate}
    (h : ∀ version q, c.policyHistory version = some q → q.version = version ∧ validatePolicyUpdate q = none)
    (hp : validatePolicyUpdate p = none) : Stocked ⟨p, Function.update c.policyHistory p.version (some p)⟩ where
  inForce := Function.update_self ..
  stored version q hq := by
    simp only [Function.update_apply] at hq
    split_ifs at hq with hversion
    · cases hq
      exact ⟨hversion.symm, hp⟩
    · exact h version q hq

/-- Also where a number is given twice and where the numbers wrap around. -/
theorem stocked_always (now : Int) (requests : List Request) :
    Stocked (StepLaws.after Run.step (start now) requests).surface := by
  induction requests with
  | nil =>
    exact Stocked.store (c := ⟨defaultPolicy now, fun _ => none⟩) (fun _ _ h => by cases h)
      (show validatePolicyUpdate (defaultPolicy 0) = none by decide +kernel)
  | cons r past ih =>
    rw [StepLaws.after]
    generalize StepLaws.after Run.step (start now) past = s at ih
    cases r with
    | update update now =>
      rw [Run.step, handlePolicyUpdate]
      cases hvalid : validatePolicyUpdate update with
      | some message => exact ih
      | none => exact Stocked.store ih.stored hvalid
    | rollback version =>
      rw [Run.step, handlePolicyRollback]
      cases hfound : s.surface.policyHistory version with
      | none => exact ih
      | some p =>
        obtain ⟨rfl, -⟩ := ih.stored version p hfound
        exact ⟨hfound, ih.stored⟩

end Overture.PolicyControl
