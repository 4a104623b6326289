import Overture.Lib.Table
import Overture.Lib.Text

/-!
# The registry of a tenant's runtimes

Registration, heartbeat, deregistration and the health poll write the rows of a tenant's machines; the number of
runtimes is kept a second time, as a counter outside the database. Each statement of a handler is one step. Heartbeats,
polls and repeated registrations do not ask whether the runtime was deregistered, and nothing ties the counter to the
rows.
-/

namespace Overture.Registry

open List Table

inductive RuntimeStatus where
  | active
  | failed
  | deregistered
deriving DecidableEq

structure Runtime where
  (machineID runtimeID publicKey : Text)
  status : RuntimeStatus
  isHealthy : Bool
deriving DecidableEq

def Runtime.live (runtime : Runtime) : Bool := runtime.status != .deregistered

structure Tables where
  runtimes : Table Runtime.machineID
  counter : Int

namespace Tables

def number (t : Tables) : Nat := t.runtimes.rows.countP Runtime.live

def update (t : Tables) (machineID : Text) (f : Runtime → Runtime)
    (hf : ∀ runtime, (f runtime).machineID = runtime.machineID) : Tables :=
  { t with
    runtimes := t.runtimes.alter (fun runtime => if runtime.machineID = machineID then f runtime else runtime)
      fun runtime => by split <;> simp [hf] }

def updateHealth (t : Tables) (runtimeID : Text) (healthy : Bool) : Tables :=
  { t with
    runtimes := t.runtimes.alter
      (fun runtime => if runtime.runtimeID = runtimeID then { runtime with isHealthy := healthy } else runtime)
      fun runtime => by split <;> rfl }

def insert (t : Tables) (machineID runtimeID publicKey : Text) : Tables :=
  { t with runtimes := t.runtimes.putNew ⟨machineID, runtimeID, publicKey, .active, true⟩ }

end Tables

/-! ## The handlers -/

inductive Reply where
  | registered
  | reregistered
  | tierLimitExceeded
  | enforcerError
  | registrationFailed
  | publicKeyMismatch
  | notRegistered
  | runtimeUnverified
  | signatureInvalid
  | beaten
  | heartbeatFailed
  | deregistered
  | deregisterFailed
  | polled
deriving DecidableEq

inductive Handler where
  | registerLookup (machineID publicKey : Text)
  | limitCheck (machineID publicKey : Text)
  | insert (machineID publicKey : Text)
  | increment
  | reregister (machineID publicKey : Text)
  | heartbeatLookup (machineID : Text)
  | heartbeat (machineID : Text)
  | deregisterLookup (machineID : Text)
  | deregister (machineID : Text)
  | decrement
  | pollList
  | poll (runtimeIDs : List Text)
  | finished (reply : Reply)
deriving DecidableEq

def Handler.isEntry : Handler → Bool
  | registerLookup _ _ => true
  | heartbeatLookup _ => true
  | deregisterLookup _ => true
  | pollList => true
  | _ => false

/-- How a statement ends: a lost one takes effect although an error is reported. -/
inductive Outcome where
  | done
  | failed
  | lost
deriving DecidableEq

structure Chance where
  outcome : Outcome
  verified : Bool
  runtimeID : Text
  healthy : Bool
deriving DecidableEq

def Outcome.effect (outcome : Outcome) (before after : Tables) : Tables :=
  match outcome with
  | .failed => before
  | _ => after

def activated (publicKey : Text) (runtime : Runtime) : Runtime :=
  { runtime with
    publicKey := if runtime.publicKey.isEmpty then publicKey else runtime.publicKey
    status := .active
    isHealthy := true }

def revived (runtime : Runtime) : Runtime := { runtime with status := .active, isHealthy := true }

def retired (runtime : Runtime) : Runtime :=
  if runtime.status = .deregistered then runtime else { runtime with status := .deregistered, isHealthy := false }

def lookupKey (failure : Reply) (next : Handler) (chance : Chance) (found : Option Runtime) : Handler :=
  if chance.outcome ≠ .done then .finished failure
  else
    match found with
    | none => .finished .notRegistered
    | some runtime =>
      if (Text.trimSpace runtime.publicKey).isEmpty then .finished .runtimeUnverified
      else if chance.verified then next
      else .finished .signatureInvalid

/-- One statement of a handler. `limit` is the limit of the tier, given when the enforcer is configured. -/
def Handler.exec (limit : Option Nat) (chance : Chance) (t : Tables) : Handler → Handler × Tables
  | registerLookup machineID publicKey =>
    if chance.outcome ≠ .done then (.finished .registrationFailed, t)
    else
      match t.runtimes.get? machineID with
      | none => (if limit.isSome then .limitCheck machineID publicKey else .insert machineID publicKey, t)
      | some runtime =>
        if !runtime.publicKey.isEmpty && runtime.publicKey != publicKey then (.finished .publicKeyMismatch, t)
        else (.reregister machineID publicKey, t)
  | limitCheck machineID publicKey =>
    if chance.outcome ≠ .done then (.finished .enforcerError, t)
    else if (limit.getD 0 : Int) ≤ t.counter then (.finished .tierLimitExceeded, t)
    else (.insert machineID publicKey, t)
  | insert machineID publicKey =>
    -- the index on tenant and machine refuses a second row
    if (t.runtimes.get? machineID).isSome then (.finished .registrationFailed, t)
    else
      match chance.outcome with
      | .done =>
        (if limit.isSome then .increment else .finished .registered, t.insert machineID chance.runtimeID publicKey)
      | .failed => (.finished .registrationFailed, t)
      | .lost => (.finished .registrationFailed, t.insert machineID chance.runtimeID publicKey)
  | increment => (.finished .registered, chance.outcome.effect t { t with counter := t.counter + 1 })
  | reregister machineID publicKey =>
    (.finished (if chance.outcome = .done then .reregistered else .registrationFailed),
      chance.outcome.effect t (t.update machineID (activated publicKey) fun _ => rfl))
  | heartbeatLookup machineID =>
    (lookupKey .heartbeatFailed (.heartbeat machineID) chance (t.runtimes.get? machineID), t)
  | heartbeat machineID =>
    (.finished (if chance.outcome ≠ .done then .heartbeatFailed
      else if (t.runtimes.get? machineID).isSome then .beaten else .notRegistered),
      chance.outcome.effect t (t.update machineID revived fun _ => rfl))
  | deregisterLookup machineID =>
    (lookupKey .deregisterFailed (.deregister machineID) chance (t.runtimes.get? machineID), t)
  | deregister machineID =>
    let after := t.update machineID retired fun runtime => by rw [retired]; split <;> rfl
    match chance.outcome with
    | .done =>
      (if (t.runtimes.get? machineID).any Runtime.live && limit.isSome then .decrement
        else .finished .deregistered, after)
    | .failed => (.finished .deregisterFailed, t)
    | .lost => (.finished .deregisterFailed, after)
  | decrement => (.finished .deregistered, chance.outcome.effect t { t with counter := t.counter - 1 })
  | pollList =>
    (if chance.outcome ≠ .done then .finished .polled else .poll (t.runtimes.rows.map Runtime.runtimeID), t)
  | poll [] => (.finished .polled, t)
  | poll (runtimeID :: rest) => (.poll rest, chance.outcome.effect t (t.updateHealth runtimeID chance.healthy))
  | finished reply => (.finished reply, t)

structure Pool where
  tables : Tables
  handlers : List Handler

abbrev Condition := Handler → Chance → Tables → List Handler → Prop

inductive Run (limit : Option Nat) (ok : Condition) (p : Pool) : Pool → Prop
  | refl : Run limit ok p p
  | start {q : Pool} (h : Handler) : Run limit ok p q → h.isEntry = true → Run limit ok p ⟨q.tables, q.handlers ++ [h]⟩
  | turn {t : Tables} {before after : List Handler} {h : Handler} (chance : Chance) :
    Run limit ok p ⟨t, before ++ h :: after⟩ → ok h chance t (before ++ after) →
      Run limit ok p ⟨(h.exec limit chance t).2, before ++ (h.exec limit chance t).1 :: after⟩

variable {limit : Option Nat} {ok : Condition} {p q : Pool} {t : Tables} {machineID : Text} {chance : Chance}
  {h : Handler} {runtime : Runtime} {others : List Handler}

theorem Run.invariant (inv : Tables → List Handler → Prop)
    (hrun : Run limit ok p q) (hp : inv p.tables p.handlers)
    (hstart : ∀ t handlers h, Handler.isEntry h = true → inv t handlers → inv t (handlers ++ [h]))
    (hturn : ∀ t before h after chance, ok h chance t (before ++ after) → inv t (before ++ h :: after) →
      inv (h.exec limit chance t).2 (before ++ (h.exec limit chance t).1 :: after)) :
    inv q.tables q.handlers := by
  induction hrun with
  | refl => exact hp
  | start h _ hentry ih => exact hstart _ _ h hentry ih
  | turn chance _ hok ih => exact hturn _ _ _ _ chance hok ih

theorem Run.weaken {ok' : Condition}
    (h : ∀ handler chance t others, ok handler chance t others → ok' handler chance t others)
    (hrun : Run limit ok p q) : Run limit ok' p q := by
  induction hrun with
  | refl => exact .refl
  | start handler _ hentry ih => exact .start handler ih hentry
  | turn chance _ hok ih => exact .turn chance ih (h _ _ _ _ hok)

def Handler.change (chance : Chance) (runtime : Runtime) : Handler → Runtime
  | reregister machineID publicKey =>
    if chance.outcome ≠ .failed ∧ runtime.machineID = machineID then activated publicKey runtime else runtime
  | heartbeat machineID =>
    if chance.outcome ≠ .failed ∧ runtime.machineID = machineID then revived runtime else runtime
  | deregister machineID =>
    if chance.outcome ≠ .failed ∧ runtime.machineID = machineID then retired runtime else runtime
  | poll (runtimeID :: _) =>
    if chance.outcome ≠ .failed ∧ runtime.runtimeID = runtimeID then { runtime with isHealthy := chance.healthy }
    else runtime
  | _ => runtime

def Handler.added (chance : Chance) (t : Tables) : Handler → List Runtime
  | insert machineID publicKey =>
    if chance.outcome ≠ .failed ∧ t.runtimes.get? machineID = none then
      [⟨machineID, chance.runtimeID, publicKey, .active, true⟩]
    else []
  | _ => []

theorem Tables.rows_insert (h : t.runtimes.get? machineID = none)
    (runtimeID publicKey : Text) :
    (t.insert machineID runtimeID publicKey).runtimes.rows =
      t.runtimes.rows ++ [⟨machineID, runtimeID, publicKey, .active, true⟩] := by
  rw [insert]
  exact rows_putNew_of_not_mem (get?_eq_none_iff.mp h)

theorem Handler.rows_exec (limit : Option Nat) (chance : Chance) (t : Tables) (h : Handler) :
    (h.exec limit chance t).2.runtimes.rows =
      t.runtimes.rows.map (fun runtime => h.change chance runtime) ++ h.added chance t := by
  cases h with
  | registerLookup machineID publicKey =>
    have htables : ((registerLookup machineID publicKey).exec limit chance t).2 = t := by
      rw [exec]
      split
      · rfl
      split
      · rfl
      · split <;> rfl
    simp [htables, change, added]
  | limitCheck machineID publicKey =>
    simp only [exec, change, added]
    split_ifs <;> simp
  | insert machineID publicKey =>
    simp only [exec, change, added]
    cases hget : t.runtimes.get? machineID with
    | some runtime => simp
    | none =>
      cases chance.outcome <;> simp [Tables.rows_insert hget]
  | reregister machineID publicKey | heartbeat machineID =>
    simp only [exec, change, added]
    cases chance.outcome <;> simp [Outcome.effect, Tables.update, alter]
  | deregister machineID =>
    simp only [exec, change, added]
    cases chance.outcome <;> simp [Tables.update, alter]
  | poll runtimeIDs =>
    cases runtimeIDs with
    | nil => simp [exec, change, added]
    | cons runtimeID rest =>
      simp only [exec, change, added]
      cases chance.outcome <;> simp [Outcome.effect, Tables.updateHealth, alter]
  | increment | decrement =>
    simp only [exec, change, added]
    cases chance.outcome <;> simp [Outcome.effect]
  | _ => simp [exec, change, added]

theorem Handler.mem_rows_exec (hmem : runtime ∈ (h.exec limit chance t).2.runtimes.rows) :
    (∃ old ∈ t.runtimes.rows, runtime = h.change chance old) ∨ runtime.status = .active := by
  rw [rows_exec, mem_append, mem_map] at hmem
  rcases hmem with ⟨old, hold, rfl⟩ | hnew
  · exact .inl ⟨old, hold, rfl⟩
  right
  cases h <;> simp only [added, not_mem_nil] at hnew
  split at hnew
  · rw [mem_singleton] at hnew
    rw [hnew]
  · simp at hnew

@[simp] theorem Handler.machineID_change (chance : Chance) (h : Handler) (runtime : Runtime) :
    (h.change chance runtime).machineID = runtime.machineID := by
  cases h with
  | poll runtimeIDs =>
    cases runtimeIDs with
    | nil => rfl
    | cons runtimeID rest => rw [change]; split <;> rfl
  | deregister machineID =>
    rw [change, retired]
    split
    · split <;> rfl
    · rfl
  | reregister machineID publicKey | heartbeat machineID => rw [change]; split <;> rfl
  | _ => rfl

/-- Heartbeats and healthy polls reach only runtimes that are not deregistered. -/
def Calm : Condition := fun h chance t _ =>
  match h with
  | .heartbeat machineID => ∀ runtime ∈ t.runtimes.rows, runtime.machineID = machineID → runtime.live = true
  | .poll (runtimeID :: _) =>
    chance.healthy = true → ∀ runtime ∈ t.runtimes.rows, runtime.runtimeID = runtimeID → runtime.live = true
  | _ => True

def Tables.Retired (t : Tables) (machineID : Text) : Prop :=
  ∃ runtime ∈ t.runtimes.rows, runtime.machineID = machineID ∧ runtime.status = .deregistered

def Tables.Quiet (t : Tables) : Prop :=
  ∀ runtime ∈ t.runtimes.rows, runtime.status = .deregistered → runtime.isHealthy = false

theorem Runtime.live_eq_false_iff : runtime.live = false ↔ runtime.status = .deregistered := by
  simp [Runtime.live]

theorem Handler.change_retired (hcalm : Calm h chance t others) (hmem : runtime ∈ t.runtimes.rows)
    (hretired : runtime.status = .deregistered) (hhealth : runtime.isHealthy = false) :
    h.change chance runtime = runtime ∨ ∃ publicKey, h = .reregister runtime.machineID publicKey := by
  have hdead : runtime.live = false := Runtime.live_eq_false_iff.mpr hretired
  cases h with
  | reregister machineID publicKey =>
    rw [change]
    split
    · next hhit => exact .inr ⟨publicKey, by rw [hhit.2]⟩
    · exact .inl rfl
  | heartbeat machineID =>
    left
    rw [change, if_neg]
    rintro ⟨-, hid⟩
    simp [hcalm runtime hmem hid] at hdead
  | deregister machineID =>
    left
    rw [change, retired, if_pos hretired, ite_self]
  | poll runtimeIDs =>
    left
    cases runtimeIDs with
    | nil => rfl
    | cons runtimeID rest =>
      rw [change]
      split
      · next hhit =>
        cases hhealthy : chance.healthy with
        | false => rw [← hhealth]
        | true => simp [hcalm hhealthy runtime hmem hhit.2] at hdead
      · rfl
  | _ => exact .inl rfl

theorem Handler.quiet_exec (hcalm : Calm h chance t others) (hquiet : t.Quiet) : (h.exec limit chance t).2.Quiet := by
  intro runtime hmem hstatus
  rcases mem_rows_exec hmem with ⟨old, hold, rfl⟩ | hactive
  · have hkept := hquiet old hold
    cases h with
    | reregister machineID publicKey | heartbeat machineID =>
      rw [change] at hstatus ⊢
      split at hstatus
      · simp [activated, revived] at hstatus
      · next hmiss => rw [if_neg hmiss]; exact hkept hstatus
    | deregister machineID =>
      rw [change, retired] at hstatus ⊢
      split_ifs at hstatus ⊢
      · exact hkept hstatus
      · rfl
      · exact hkept hstatus
    | poll runtimeIDs =>
      cases runtimeIDs with
      | nil => exact hkept hstatus
      | cons runtimeID rest =>
        rw [change] at hstatus ⊢
        split
        · next hhit =>
          rw [if_pos hhit] at hstatus
          cases hhealthy : chance.healthy with
          | false => rfl
          | true =>
            have hdead : old.live = false := Runtime.live_eq_false_iff.mpr hstatus
            rw [hcalm hhealthy old hold hhit.2] at hdead
            cases hdead
        · next hmiss =>
          rw [if_neg hmiss] at hstatus
          exact hkept hstatus
    | _ => exact hkept hstatus
  · rw [hstatus] at hactive
    cases hactive

def NotReregistering (machineID : Text) : Condition := fun h _ _ _ => ∀ publicKey, h ≠ .reregister machineID publicKey

theorem Handler.retired_exec (hcalm : Calm h chance t others) (hother : NotReregistering machineID h chance t others)
    (hquiet : t.Quiet) (hretired : t.Retired machineID) : (h.exec limit chance t).2.Retired machineID := by
  obtain ⟨runtime, hmem, rfl, hstatus⟩ := hretired
  refine ⟨runtime, ?_, rfl, hstatus⟩
  rw [rows_exec, mem_append, mem_map]
  left
  refine ⟨runtime, hmem, ?_⟩
  rcases change_retired hcalm hmem hstatus (hquiet runtime hmem hstatus) with hsame | ⟨publicKey, hagain⟩
  · exact hsame
  · exact absurd hagain (hother publicKey)

/-! ## The counter -/

/-- A repeated registration reaches only a runtime that is not deregistered, the counter can be written, and
an insertion or deregistration that reports an error has not taken effect. -/
def Counted : Condition := fun h chance t _ =>
  match h with
  | .reregister machineID _ => ∀ runtime ∈ t.runtimes.rows, runtime.machineID = machineID → runtime.live = true
  | .increment => chance.outcome ≠ .failed
  | .decrement => chance.outcome ≠ .failed
  | .insert _ _ => chance.outcome ≠ .lost
  | .deregister _ => chance.outcome ≠ .lost
  | _ => True

def Handler.lost (chance : Chance) (t : Tables) : Handler → Nat
  | deregister machineID =>
    if chance.outcome ≠ .failed ∧ (t.runtimes.get? machineID).any Runtime.live then 1 else 0
  | _ => 0

theorem Handler.live_change
    (hcalm : Calm h chance t others) (hcounted : Counted h chance t others) (hmem : runtime ∈ t.runtimes.rows)
    (hother : ∀ machineID, h = .deregister machineID → chance.outcome ≠ .failed →
      runtime.machineID ≠ machineID ∨ runtime.live = false) :
    (h.change chance runtime).live = runtime.live := by
  cases h with
  | reregister machineID publicKey =>
    rw [change]
    split
    · next hhit => rw [hcounted runtime hmem hhit.2]; rfl
    · rfl
  | heartbeat machineID =>
    rw [change]
    split
    · next hhit => rw [hcalm runtime hmem hhit.2]; rfl
    · rfl
  | deregister machineID =>
    rw [change]
    split
    · next hhit =>
      rcases hother machineID rfl hhit.1 with hne | hdead
      · exact absurd hhit.2 hne
      · rw [retired, if_pos (Runtime.live_eq_false_iff.mp hdead)]
    · rfl
  | poll runtimeIDs =>
    cases runtimeIDs with
    | nil => rfl
    | cons runtimeID rest =>
      rw [change]
      split <;> rfl
  | _ => rfl

theorem Handler.countP_added (chance : Chance) (t : Tables) (h : Handler) :
    (h.added chance t).countP Runtime.live = (h.added chance t).length := by
  cases h with
  | insert machineID publicKey =>
    rw [added]
    split <;> rfl
  | _ => rfl

theorem Handler.countP_change (hcalm : Calm h chance t others) (hcounted : Counted h chance t others) :
    (t.runtimes.alter (fun runtime => h.change chance runtime) (machineID_change chance h)).rows.countP Runtime.live +
      h.lost chance t = t.number := by
  by_cases hlost : ∃ machineID runtime, h = .deregister machineID ∧ chance.outcome ≠ .failed ∧
      t.runtimes.get? machineID = some runtime ∧ runtime.live = true
  · obtain ⟨machineID, runtime, rfl, houtcome, hget, hlive⟩ := hlost
    have hid := key_of_get? hget
    have hone : (deregister machineID).lost chance t = 1 := by simp [lost, houtcome, hget, hlive]
    rw [hone, Tables.number]
    refine (countP_alter_of_lost (mem_of_get? hget) hlive ?_ ?_).symm
    · have halive : runtime.status ≠ .deregistered := by simpa [Runtime.live] using hlive
      rw [change, if_pos ⟨houtcome, hid⟩, retired, if_neg halive]
      rfl
    intro other hother hne
    apply live_change hcalm hcounted hother
    rintro _ ⟨⟩ -
    exact .inl (hid ▸ hne)
  have hzero : h.lost chance t = 0 := by
    cases h with
    | deregister machineID =>
      rw [lost, if_neg]
      rintro ⟨houtcome, hany⟩
      cases hget : t.runtimes.get? machineID with
      | none => simp [hget] at hany
      | some runtime =>
        exact hlost ⟨machineID, runtime, rfl, houtcome, hget, by simpa [hget] using hany⟩
    | _ => rfl
  rw [hzero, Nat.add_zero, Tables.number]
  apply countP_alter
  intro runtime hmem
  apply live_change hcalm hcounted hmem
  rintro machineID rfl houtcome
  by_cases hid : runtime.machineID = machineID
  · right
    by_contra hlive
    exact hlost ⟨machineID, runtime, rfl, houtcome, hid ▸ get?_of_mem hmem, by simpa using hlive⟩
  · exact .inl hid

theorem Handler.number_exec (limit : Option Nat)
    (hcalm : Calm h chance t others) (hcounted : Counted h chance t others) :
    (h.exec limit chance t).2.number + h.lost chance t = t.number + (h.added chance t).length := by
  have hchange : (t.runtimes.rows.map fun runtime => h.change chance runtime).countP Runtime.live +
      h.lost chance t = t.number := countP_change hcalm hcounted
  rw [Tables.number, rows_exec, countP_append, countP_added]
  omega

/-- The counter is written by another statement than the rows, so a handler may still owe it. -/
def Handler.owed : Handler → Int
  | increment => 1
  | decrement => -1
  | _ => 0

theorem map_lookupKey {α : Type} (f : Handler → α) {next : Handler} (h : ∀ reply, f (.finished reply) = f next)
    (failure : Reply) (chance : Chance) (found : Option Runtime) :
    f (lookupKey failure next chance found) = f next := by
  unfold lookupKey
  split
  · exact h _
  split
  · exact h _
  split_ifs
  · exact h _
  · rfl
  · exact h _

theorem Handler.counter_exec (limit : Nat)
    (hcounted : Counted h chance t others) :
    (h.exec (some limit) chance t).2.counter + (h.exec (some limit) chance t).1.owed =
      t.counter + h.owed + (h.added chance t).length - h.lost chance t := by
  cases h with
  | registerLookup machineID publicKey =>
    simp only [exec]
    split
    · simp [owed, added, lost]
    split
    · simp [owed, added, lost]
    · split <;> simp [owed, added, lost]
  | limitCheck machineID publicKey =>
    simp only [exec]
    split
    · simp [owed, added, lost]
    · split <;> simp [owed, added, lost]
  | insert machineID publicKey =>
    simp only [exec]
    split
    · next hsome =>
      have hadded : (insert machineID publicKey).added chance t = [] := by
        rw [added, if_neg]
        rintro ⟨-, hnone⟩
        simp [hnone] at hsome
      simp [hadded, owed, lost]
    next hnone =>
    have hget : t.runtimes.get? machineID = none := by simpa using hnone
    cases houtcome : chance.outcome with
    | done => simp [owed, added, lost, houtcome, hget, Tables.insert]
    | failed => simp [owed, added, lost, houtcome]
    | lost => exact absurd houtcome hcounted
  | deregister machineID =>
    simp only [exec]
    cases houtcome : chance.outcome with
    | done =>
      cases hlive : (t.runtimes.get? machineID).any Runtime.live <;>
        simp [owed, added, lost, houtcome, hlive, Tables.update]
      omega
    | failed => simp [owed, added, lost, houtcome]
    | lost => exact absurd houtcome hcounted
  | increment | decrement =>
    cases houtcome : chance.outcome with
    | failed => exact absurd houtcome hcounted
    | done | lost => simp [exec, houtcome, Outcome.effect, owed, added, lost, sub_eq_add_neg]
  | heartbeatLookup machineID | deregisterLookup machineID =>
    simp only [exec]
    rw [map_lookupKey owed fun _ => rfl]
    simp [owed, added, lost]
  | pollList =>
    simp only [exec]
    split <;> simp [owed, added, lost]
  | poll runtimeIDs =>
    cases runtimeIDs with
    | nil => simp [exec, owed, added, lost]
    | cons runtimeID rest =>
      cases houtcome : chance.outcome <;>
        simp [exec, houtcome, Outcome.effect, Tables.updateHealth, owed, added, lost]
  | reregister machineID publicKey | heartbeat machineID =>
    cases houtcome : chance.outcome <;> simp [exec, houtcome, Outcome.effect, Tables.update, owed, added, lost]
  | finished reply => simp [exec, owed, added, lost]

def Balanced (t : Tables) (handlers : List Handler) : Prop :=
  t.counter + (handlers.map Handler.owed).sum = t.number

theorem Handler.balanced_exec {limit : Nat} {before after : List Handler}
    (hcalm : Calm h chance t (before ++ after)) (hcounted : Counted h chance t (before ++ after))
    (hbalanced : Balanced t (before ++ h :: after)) :
    Balanced (h.exec (some limit) chance t).2 (before ++ (h.exec (some limit) chance t).1 :: after) := by
  have hnumber := number_exec (some limit) hcalm hcounted
  have hcounter := counter_exec limit hcounted
  simp only [Balanced, map_append, map_cons, sum_append, sum_cons] at hbalanced ⊢
  omega

theorem Handler.owed_of_isEntry (hentry : h.isEntry = true) : h.owed = 0 := by
  cases h <;> first | rfl | cases hentry

/-- A limit is checked only while no other registration is between its own check and its increment. -/
def Alone : Condition := fun h _ _ others =>
  match h with
  | .limitCheck _ _ => ∀ other ∈ others, other ≠ .increment ∧ ∀ machineID publicKey, other ≠ .insert machineID publicKey
  | _ => True

def Handler.admitted : Handler → Nat
  | insert _ _ => 1
  | _ => 0

def Within (limit : Nat) (t : Tables) (handlers : List Handler) : Prop :=
  t.number + (handlers.map Handler.admitted).sum ≤ limit

theorem Handler.length_added_le (chance : Chance) (t : Tables) (h : Handler) :
    (h.added chance t).length ≤ h.admitted := by
  cases h with
  | insert machineID publicKey =>
    rw [added]
    split <;> simp [admitted]
  | _ => exact Nat.le_refl 0

theorem Handler.admitted_exec (limit : Nat) (chance : Chance) (t : Tables) (h : Handler) :
    (h.exec (some limit) chance t).1.admitted = 0 ∨
      (h.exec (some limit) chance t).1.admitted = 1 ∧ t.counter < limit ∧ ∃ machineID publicKey,
        h = .limitCheck machineID publicKey := by
  cases h with
  | registerLookup machineID publicKey =>
    left
    simp only [exec]
    split
    · rfl
    split
    · rfl
    · split <;> rfl
  | limitCheck machineID publicKey =>
    simp only [exec]
    split
    · exact .inl rfl
    split
    · exact .inl rfl
    · next hbelow => exact .inr ⟨rfl, by simpa using hbelow, machineID, publicKey, rfl⟩
  | insert machineID publicKey =>
    left
    simp only [exec]
    split
    · rfl
    · split <;> rfl
  | heartbeatLookup machineID | deregisterLookup machineID =>
    exact .inl (map_lookupKey admitted (fun _ => rfl) _ _ _)
  | deregister machineID =>
    left
    simp only [exec]
    split
    · split <;> rfl
    · rfl
    · rfl
  | pollList =>
    left
    simp only [exec]
    split <;> rfl
  | poll runtimeIDs =>
    left
    cases runtimeIDs <;> rfl
  | _ => exact .inl rfl

theorem sum_admitted_eq_zero
    (h : ∀ other ∈ others, other ≠ .increment ∧ ∀ machineID publicKey, other ≠ .insert machineID publicKey) :
    (others.map Handler.admitted).sum = 0 := by
  apply sum_eq_zero
  intro n hn
  obtain ⟨other, hother, rfl⟩ := mem_map.mp hn
  cases other with
  | insert machineID publicKey => exact absurd rfl ((h _ hother).2 machineID publicKey)
  | _ => rfl

theorem sum_owed_nonpos
    (h : ∀ other ∈ others, other ≠ .increment ∧ ∀ machineID publicKey, other ≠ .insert machineID publicKey) :
    (others.map Handler.owed).sum ≤ 0 := by
  induction others with
  | nil => exact le_refl 0
  | cons other rest ih =>
    have hrest := ih fun later hlater => h later (mem_cons_of_mem _ hlater)
    have hother : other.owed ≤ 0 := by
      cases other with
      | increment => exact absurd rfl (h _ mem_cons_self).1
      | decrement => decide
      | _ => exact le_refl 0
    rw [map_cons, sum_cons]
    omega

theorem Handler.within_exec {limit : Nat} {before after : List Handler}
    (hcalm : Calm h chance t (before ++ after)) (hcounted : Counted h chance t (before ++ after))
    (halone : Alone h chance t (before ++ after)) (hbalanced : Balanced t (before ++ h :: after))
    (hwithin : Within limit t (before ++ h :: after)) :
    Within limit (h.exec (some limit) chance t).2 (before ++ (h.exec (some limit) chance t).1 :: after) := by
  have hnumber := number_exec (some limit) hcalm hcounted
  have hadded := length_added_le chance t h
  simp only [Within, map_append, map_cons, sum_append, sum_cons] at hwithin ⊢
  rcases admitted_exec limit chance t h with hzero | ⟨hone, hbelow, machineID, publicKey, rfl⟩
  · omega
  have hothers := sum_admitted_eq_zero halone
  have howed := sum_owed_nonpos halone
  simp only [Balanced, map_append, map_cons, sum_append, sum_cons] at hbalanced hothers howed
  have hnone : (limitCheck machineID publicKey).owed = 0 := rfl
  have hnew : (limitCheck machineID publicKey).added chance t = [] := rfl
  rw [hnew, length_nil] at hnumber
  omega

theorem Handler.admitted_of_isEntry (hentry : h.isEntry = true) : h.admitted = 0 := by
  cases h <;> first | rfl | cases hentry

/-- Nothing is in flight, no deregistered runtime is healthy and the counter is right. -/
structure Settled (limit : Option Nat) (p : Pool) : Prop where
  handlers : p.handlers = []
  quiet : p.tables.Quiet
  counter : p.tables.counter = p.tables.number
  within : ∀ n, limit = some n → p.tables.number ≤ n

theorem Run.quiet (hrun : Run limit Calm p q) (hp : p.tables.Quiet) :
    q.tables.Quiet := by
  refine hrun.invariant (fun t _ => t.Quiet) hp (fun _ _ _ _ h => h) ?_
  intro t before h after chance hok hquiet
  exact Handler.quiet_exec hok hquiet

theorem Run.retired
    (hrun : Run limit (fun h chance t others => Calm h chance t others ∧ NotReregistering machineID h chance t others) p q)
    (hquiet : p.tables.Quiet) (hretired : p.tables.Retired machineID) :
    q.tables.Quiet ∧ q.tables.Retired machineID := by
  refine hrun.invariant (fun t _ => t.Quiet ∧ t.Retired machineID) ⟨hquiet, hretired⟩ (fun _ _ _ _ h => h) ?_
  rintro t before h after chance ⟨hcalm, hother⟩ ⟨hquiet, hretired⟩
  exact ⟨Handler.quiet_exec hcalm hquiet, Handler.retired_exec hcalm hother hquiet hretired⟩

theorem Run.balanced {limit : Nat}
    (hrun : Run (some limit) (fun h chance t others => Calm h chance t others ∧ Counted h chance t others) p q)
    (hp : Balanced p.tables p.handlers) : Balanced q.tables q.handlers := by
  refine hrun.invariant Balanced hp ?_ ?_
  · intro t handlers h hentry hbalanced
    simpa [Balanced, Handler.owed_of_isEntry hentry] using hbalanced
  · rintro t before h after chance ⟨hcalm, hcounted⟩ hbalanced
    exact Handler.balanced_exec hcalm hcounted hbalanced

theorem Run.within {limit : Nat}
    (hrun : Run (some limit) (fun h chance t others =>
      Calm h chance t others ∧ Counted h chance t others ∧ Alone h chance t others) p q)
    (hbalanced : Balanced p.tables p.handlers) (hwithin : Within limit p.tables p.handlers) :
    Balanced q.tables q.handlers ∧ Within limit q.tables q.handlers := by
  refine hrun.invariant (fun t handlers => Balanced t handlers ∧ Within limit t handlers) ⟨hbalanced, hwithin⟩ ?_ ?_
  · rintro t handlers h hentry ⟨hbalanced, hwithin⟩
    constructor
    · simpa [Balanced, Handler.owed_of_isEntry hentry] using hbalanced
    · simpa [Within, Handler.admitted_of_isEntry hentry] using hwithin
  rintro t before h after chance ⟨hcalm, hcounted, halone⟩ ⟨hbalanced, hwithin⟩
  exact ⟨Handler.balanced_exec hcalm hcounted hbalanced,
    Handler.within_exec hcalm hcounted halone hbalanced hwithin⟩

theorem sum_owed_eq_zero {handlers : List Handler} (h : ∀ handler ∈ handlers, handler.owed = 0) :
    (handlers.map Handler.owed).sum = 0 := by
  apply sum_eq_zero
  intro n hn
  obtain ⟨handler, hmem, rfl⟩ := mem_map.mp hn
  exact h handler hmem

theorem registry_consistent {limit : Option Nat} {p : Pool} (hp : Settled limit p) :
    (∀ q r machineID, Run limit Calm p q → q.tables.Retired machineID →
      Run limit (fun h chance t others => Calm h chance t others ∧ NotReregistering machineID h chance t others) q r →
      ∀ runtime ∈ r.tables.runtimes.rows, runtime.machineID = machineID →
        runtime.status = .deregistered ∧ runtime.isHealthy = false) ∧
    (∀ n q, limit = some n →
      Run limit (fun h chance t others => Calm h chance t others ∧ Counted h chance t others) p q →
      q.tables.counter + (q.handlers.map Handler.owed).sum = q.tables.number ∧
        ((∀ h ∈ q.handlers, h.owed = 0) → q.tables.counter = q.tables.number)) ∧
    (∀ n q, limit = some n →
      Run limit (fun h chance t others =>
        Calm h chance t others ∧ Counted h chance t others ∧ Alone h chance t others) p q →
      q.tables.number ≤ n) := by
  have hbalanced : Balanced p.tables p.handlers := by
    simp [Balanced, hp.handlers, hp.counter]
  refine ⟨?_, ?_, ?_⟩
  · intro q r machineID hcalm hretired hrun runtime hmem hid
    obtain ⟨hquiet, gone, hgone, hgoneID, hstatus⟩ := hrun.retired (hcalm.quiet hp.quiet) hretired
    obtain rfl : runtime = gone := inj_on_of_nodup_map r.tables.runtimes.nodup hmem hgone (hid.trans hgoneID.symm)
    exact ⟨hstatus, hquiet runtime hmem hstatus⟩
  · rintro n q rfl hrun
    have hq : Balanced q.tables q.handlers := hrun.balanced hbalanced
    refine ⟨hq, fun hnone => ?_⟩
    rw [Balanced, sum_owed_eq_zero hnone, add_zero] at hq
    exact hq
  rintro n q rfl hrun
  have hwithin : Within n p.tables p.handlers := by
    simpa [Within, hp.handlers] using hp.within n rfl
  have hq := (hrun.within hbalanced hwithin).2
  rw [Within] at hq
  omega

/-! ## Runs on fixed inputs -/

inductive Move where
  | start (h : Handler)
  | turn (i : Nat) (chance : Chance)

def Pool.move (limit : Option Nat) (check : Handler → Chance → List Handler → Bool) (p : Pool) : Move → Option Pool
  | .start h => if h.isEntry then some ⟨p.tables, p.handlers ++ [h]⟩ else none
  | .turn i chance =>
    match p.handlers.drop i with
    | [] => none
    | h :: after =>
      if check h chance (p.handlers.take i ++ after) then
        some ⟨(h.exec limit chance p.tables).2, p.handlers.take i ++ (h.exec limit chance p.tables).1 :: after⟩
      else none

def Pool.moves (limit : Option Nat) (check : Handler → Chance → List Handler → Bool) (p : Pool) : List Move → Option Pool
  | [] => some p
  | move :: rest => (p.move limit check move).bind fun q => q.moves limit check rest

theorem Run.of_moves {check : Handler → Chance → List Handler → Bool}
    (hcheck : ∀ h chance t others, check h chance others = true → ok h chance t others) {moves : List Move}
    (h : p.moves limit check moves = some q) {origin : Pool} (horigin : Run limit ok origin p) :
    Run limit ok origin q := by
  induction moves generalizing p with
  | nil =>
    cases h
    exact horigin
  | cons move rest ih =>
    obtain ⟨next, hmove, hrest⟩ := Option.bind_eq_some_iff.mp h
    refine ih hrest ?_
    cases move with
    | start handler =>
      rw [Pool.move] at hmove
      split at hmove
      · next hentry =>
        cases hmove
        exact .start handler horigin hentry
      · cases hmove
    | turn i chance =>
      rw [Pool.move] at hmove
      split at hmove
      · cases hmove
      next handler after hdrop =>
      split at hmove
      · next hpass =>
        cases hmove
        have hsplit : p = ⟨p.tables, p.handlers.take i ++ handler :: after⟩ := by
          rw [← hdrop, take_append_drop]
        exact .turn chance (hsplit ▸ horigin) (hcheck _ _ _ _ hpass)
      · cases hmove

def emptyRegistry : Pool := ⟨⟨empty, 0⟩, []⟩

theorem emptyRegistry_settled (limit : Option Nat) : Settled limit emptyRegistry where
  handlers := rfl
  quiet := by simp [Tables.Quiet, emptyRegistry, empty]
  counter := rfl
  within := by simp [Tables.number, emptyRegistry, empty]

def smooth (runtimeID : Text) : Chance := ⟨.done, true, runtimeID, true⟩

def undisturbed (i : Nat) (h : Handler) (runtimeID : Text) (statements : Nat) : List Move :=
  .start h :: replicate statements (.turn i (smooth runtimeID))

def careful : Handler → Chance → List Handler → Bool := fun h chance others =>
  chance.outcome == .done && others.isEmpty &&
    match h with
    | .heartbeat _ => false
    | .poll _ => false
    | .reregister _ _ => false
    | _ => true

theorem conditions_of_careful (hcareful : careful h chance others = true) :
    Calm h chance t others ∧ Counted h chance t others ∧ Alone h chance t others := by
  simp only [careful, Bool.and_eq_true, beq_iff_eq, List.isEmpty_iff] at hcareful
  obtain ⟨⟨houtcome, rfl⟩, hkind⟩ := hcareful
  cases h with
  | heartbeat machineID => cases hkind
  | poll runtimeIDs => cases hkind
  | reregister machineID publicKey => cases hkind
  | _ => simp [Calm, Counted, Alone, houtcome]

def firstRegistration : Option Pool :=
  emptyRegistry.moves (some 1) careful (undisturbed 0 (.registerLookup "m1" "k1") "r1" 4)

theorem first_registration_consistent :
    ∃ q, Run (some 1) (fun h chance t others =>
        Calm h chance t others ∧ Counted h chance t others ∧ Alone h chance t others) emptyRegistry q ∧
      q.tables.counter = q.tables.number ∧ q.tables.number ≤ 1 ∧ 0 < q.tables.number := by
  have hafter : firstRegistration.any (fun q => (q.handlers.all fun h => h.owed == 0) && q.tables.number != 0) =
      true := by decide +kernel
  cases hq : firstRegistration with
  | none => simp [hq] at hafter
  | some q =>
    rw [hq] at hafter
    simp only [Option.any_some, Bool.and_eq_true, all_eq_true, beq_iff_eq, bne_iff_ne] at hafter
    have hrun : Run (some 1) (fun h chance t others =>
        Calm h chance t others ∧ Counted h chance t others ∧ Alone h chance t others) emptyRegistry q :=
      .of_moves (fun _ _ _ _ => conditions_of_careful) hq .refl
    obtain ⟨-, hcounter, hlimit⟩ := registry_consistent (emptyRegistry_settled (some 1))
    exact ⟨q, hrun, (hcounter 1 q rfl (hrun.weaken fun _ _ _ _ h => ⟨h.1, h.2.1⟩)).2 hafter.1, hlimit 1 q rfl hrun,
      Nat.pos_of_ne_zero hafter.2⟩

def unchecked : Handler → Chance → List Handler → Bool := fun _ _ _ => true

def notReregistering : Handler → Chance → List Handler → Bool
  | .reregister _ _, _, _ => false
  | _, _, _ => true

def replacedMachine : Option Pool :=
  emptyRegistry.moves (some 1) unchecked
    (undisturbed 0 (.registerLookup "m1" "k1") "r1" 4 ++
      undisturbed 1 (.deregisterLookup "m1") [] 3 ++
      undisturbed 2 (.registerLookup "m2" "k2") "r2" 4)

def lateHeartbeat : Option Pool :=
  replacedMachine.bind fun p => p.moves (some 1) notReregistering
    (undisturbed 3 (.heartbeatLookup "m1") [] 2)

theorem heartbeat_revives_deregistered :
    Settled (some 1) emptyRegistry ∧ ∃ q r, Run (some 1) (fun _ _ _ _ => True) emptyRegistry q ∧
      q.tables.Retired "m1".toList ∧ Run (some 1) (NotReregistering "m1".toList) q r ∧
      (∀ h ∈ r.handlers, h.owed = 0) ∧
      (∃ runtime ∈ r.tables.runtimes.rows, runtime.machineID = "m1".toList ∧ runtime.status = .active ∧
        runtime.isHealthy = true) ∧
      r.tables.counter = 1 ∧ r.tables.number = 2 := by
  have hbefore : replacedMachine.any (fun q => q.tables.runtimes.rows.any fun runtime =>
      runtime.machineID == "m1" && runtime.status == .deregistered) = true := by decide +kernel
  have hafter : lateHeartbeat.any (fun r => (r.handlers.all fun h => h.owed == 0) &&
      (r.tables.runtimes.rows.any fun runtime => runtime.machineID == "m1" &&
        runtime.status == .active && runtime.isHealthy) &&
      r.tables.counter == 1 && r.tables.number == 2) = true := by decide +kernel
  cases hq : replacedMachine with
  | none => simp [hq] at hbefore
  | some q =>
    cases hr : lateHeartbeat with
    | none => simp [hr] at hafter
    | some r =>
      rw [hq] at hbefore
      rw [hr] at hafter
      simp only [Option.any_some, any_eq_true, Bool.and_eq_true, beq_iff_eq, all_eq_true] at hbefore hafter
      obtain ⟨⟨⟨howed, runtime, hmem, ⟨hid, hactive⟩, hhealthy⟩, hcounter⟩, hnumber⟩ := hafter
      obtain ⟨gone, hgone, hgoneID, hstatus⟩ := hbefore
      have hlate : q.moves (some 1) notReregistering (undisturbed 3 (.heartbeatLookup "m1") [] 2) = some r := by
        simpa [lateHeartbeat, hq] using hr
      refine ⟨emptyRegistry_settled _, q, r, .of_moves (fun _ _ _ _ _ => trivial) hq .refl,
        ⟨gone, hgone, hgoneID, hstatus⟩, .of_moves ?_ hlate .refl, howed,
        ⟨runtime, hmem, hid, hactive, hhealthy⟩, hcounter, hnumber⟩
      rintro h chance t others hcheck publicKey rfl
      cases hcheck

end Overture.Registry
