import Overture.Coordinator.DatabaseSteps
import Overture.Api.EvidenceEvents

/-!
# Reconciliation events

The table `contract_bound_action_reconciliation_events` of migration 072 with the tables its
append guard reads. A row of it states that the effect of a run is unknown, or how an operator
resolved that. What the constraints, the indexes and the guard keep is part of the table: a run
has one observation, every resolution has an observation, and nothing follows a terminal one.
-/

namespace Overture

open Except (ensure ensure_eq_ok ok_of_bind_ok bind_ok)

/-- A row of `action_contract_execution_bindings`, with the format its hashes have to have. -/
structure ExecutionBinding where
  id : Uuid
  (tenantID contractHash : Text)
  targetActionID : Uuid
  targetVersionHash : Text
  idempotencyRequired : Bool
  hashFormat : contractHashPattern contractHash = true ∧ contractHashPattern targetVersionHash = true

structure BoundRun where
  taskID : Uuid
  tenantID : Text
  bindingID : Uuid
  contractHash : Text
  targetActionID : Uuid
  (targetVersionHash businessIdempotencyKey : Text)
deriving DecidableEq

namespace BoundRun

def refersTo (r : BoundRun) (b : ExecutionBinding) : Bool :=
  b.id == r.bindingID && b.tenantID == r.tenantID && b.contractHash == r.contractHash &&
    b.targetActionID == r.targetActionID && b.targetVersionHash == r.targetVersionHash

def idempotencyDigest (r : BoundRun) : Text := CanonicalJson.sha256Hex (Utf8.encode r.businessIdempotencyKey)

end BoundRun

structure RunTables where
  tasks : Table taskSchema.key
  bindings : Table ExecutionBinding.id
  runs : Table BoundRun.taskID
  bound : ∀ r ∈ runs.rows, ∃ b ∈ bindings.rows, r.refersTo b = true

/-! ## Events -/

inductive ReconciliationEventType where
  | unresolvedEffectObserved
  | operatorResolution
deriving DecidableEq

inductive Resolution where
  | confirmedSucceeded
  | confirmedFailed
  | remainsUnknown
deriving DecidableEq

def Resolution.terminal : Resolution → Bool
  | confirmedSucceeded | confirmedFailed => true
  | remainsUnknown => false

inductive ReconciliationActor where
  | runtime
  | operator
deriving DecidableEq

inductive ExternalReferenceType where
  | providerReference
  | transactionID
  | deploymentID
  | ticketID
  | runtimeResponseDigest
deriving DecidableEq

structure ReconciliationEvent where
  id : Uuid
  tenantID : Text
  (taskID bindingID : Uuid)
  contractHash : Text
  targetActionID : Uuid
  (targetVersionHash businessIdempotencyDigest : Text)
  eventType : ReconciliationEventType
  resolution : Option Resolution
  actorType : ReconciliationActor
  actorID : Text
  actorEmail : Option Text
  reason : Text
  externalReference : Option (ExternalReferenceType × Text)
  targetHost : Option Text
  sourceStatusCode : Option Nat
  operatorRequestID : Option Uuid
  createdAt : Nat
deriving DecidableEq

namespace ReconciliationEvent

def run (e : ReconciliationEvent) : Text × Uuid := (e.tenantID, e.taskID)

def isObservation (e : ReconciliationEvent) : Bool := e.eventType == .unresolvedEffectObserved

def isTerminal (e : ReconciliationEvent) : Bool := e.resolution.any Resolution.terminal

def shape (e : ReconciliationEvent) : Bool :=
  match e.eventType with
  | .unresolvedEffectObserved => e.resolution.isNone && e.actorType == .runtime && e.operatorRequestID.isNone
  | .operatorResolution => e.resolution.isSome && e.actorType == .operator && e.operatorRequestID.isSome

def checks (e : ReconciliationEvent) : Bool :=
  decide (1 ≤ e.actorID.length) && decide (e.actorID.length ≤ 256) &&
    e.actorEmail.all (fun t => decide (t.length ≤ 320)) &&
    decide (1 ≤ e.reason.length) && decide (e.reason.length ≤ 1000) &&
    e.externalReference.all (fun r => decide (1 ≤ r.2.length) && decide (r.2.length ≤ 256)) &&
    e.targetHost.all (fun t => decide (t.length ≤ 253)) &&
    e.sourceStatusCode.all (fun n => decide (100 ≤ n) && decide (n ≤ 599)) &&
    contractHashPattern e.contractHash && contractHashPattern e.targetVersionHash &&
    contractHashPattern e.businessIdempotencyDigest && e.shape

def clashes (e e' : ReconciliationEvent) : Bool :=
  e.run == e'.run &&
    ((e.isObservation && e'.isObservation) ||
      (e.operatorRequestID.isSome && e.operatorRequestID == e'.operatorRequestID) ||
      (e.isTerminal && e'.isTerminal))

theorem clashes_comm (e e' : ReconciliationEvent) : e.clashes e' = e'.clashes e := by
  rw [Bool.eq_iff_iff]
  simp only [clashes, Bool.and_eq_true, Bool.or_eq_true, beq_iff_eq, Option.isSome_iff_exists]
  constructor <;> rintro ⟨hrun, (⟨h, h'⟩ | ⟨⟨a, h⟩, h'⟩) | ⟨h, h'⟩⟩ <;> refine ⟨hrun.symm, ?_⟩
  · exact .inl (.inl ⟨h', h⟩)
  · exact .inl (.inr ⟨⟨a, h' ▸ h⟩, h'.symm⟩)
  · exact .inr ⟨h', h⟩
  · exact .inl (.inl ⟨h', h⟩)
  · exact .inl (.inr ⟨⟨a, h' ▸ h⟩, h'.symm⟩)
  · exact .inr ⟨h', h⟩

theorem shape_of_checks {e : ReconciliationEvent} (h : e.checks = true) : e.shape = true := by
  rw [checks, Bool.and_eq_true] at h
  exact h.2

theorem not_terminal_of_observation {e : ReconciliationEvent} (hc : e.checks = true) (h : e.isObservation = true) :
    e.isTerminal = false := by
  have hshape := shape_of_checks hc
  have htype : e.eventType = .unresolvedEffectObserved := by simpa [isObservation] using h
  simp only [shape, htype, Bool.and_eq_true, Option.isNone_iff_eq_none] at hshape
  simp [isTerminal, hshape.1.1]

end ReconciliationEvent

structure ReconciliationEvents where
  rows : List ReconciliationEvent
  checked : ∀ e ∈ rows, e.checks = true
  nodup_id : (rows.map ReconciliationEvent.id).Nodup
  unique : rows.Pairwise fun e e' => e.clashes e' = false
  grounded : ∀ e ∈ rows, e.isObservation = false → ∃ o ∈ rows, o.run = e.run ∧ o.isObservation = true
  closed : rows.Pairwise fun e e' => e.run = e'.run → e.isTerminal = false

namespace ReconciliationEvents

def empty : ReconciliationEvents := ⟨[], by simp, by simp, by simp, by simp, by simp⟩

def history (t : ReconciliationEvents) (run : Text × Uuid) : List ReconciliationEvent :=
  t.rows.filter fun e => e.run == run

def observed (t : ReconciliationEvents) (run : Text × Uuid) : Bool := (t.history run).any (·.isObservation)

def resolved (t : ReconciliationEvents) (run : Text × Uuid) : Bool := (t.history run).any (·.isTerminal)

@[simp] theorem mem_history {t : ReconciliationEvents} {run : Text × Uuid} {e : ReconciliationEvent} :
    e ∈ t.history run ↔ e ∈ t.rows ∧ e.run = run := by simp [history]

variable {t : ReconciliationEvents}

theorem observed_iff {run : Text × Uuid} :
    t.observed run = true ↔ ∃ e ∈ t.rows, e.run = run ∧ e.isObservation = true := by
  simp [observed, and_assoc]

theorem resolved_iff {run : Text × Uuid} :
    t.resolved run = true ↔ ∃ e ∈ t.rows, e.run = run ∧ e.isTerminal = true := by
  simp [resolved, and_assoc]

theorem eq_of_clashes {e e' : ReconciliationEvent} (he : e ∈ t.rows) (he' : e' ∈ t.rows)
    (h : e.clashes e' = true) : e = e' := by
  by_contra hne
  have : Std.Symm fun e e' : ReconciliationEvent => e.clashes e' = false :=
    ⟨fun a b hab => by rwa [ReconciliationEvent.clashes_comm]⟩
  rw [t.unique.forall he he' hne] at h
  cases h

def free (t : ReconciliationEvents) (e : ReconciliationEvent) : Bool := t.rows.all fun e' => !e'.clashes e

structure Admits (t : ReconciliationEvents) (e : ReconciliationEvent) : Prop where
  checks : e.checks = true
  id_fresh : e.id ∉ t.rows.map ReconciliationEvent.id
  free : t.free e = true
  required : e.isObservation = false → t.observed e.run = true
  open_run : e.isObservation = false → t.resolved e.run = false

theorem Admits.resolved_eq_false {e : ReconciliationEvent} (h : t.Admits e) :
    t.resolved e.run = false := by
  cases hobs : e.isObservation with
  | false => exact h.open_run hobs
  | true =>
    -- a terminal resolution would rest on an observation, which clashes with this one
    rw [← Bool.not_eq_true, resolved_iff]
    rintro ⟨r, hr, hrun, hterminal⟩
    have hres : r.isObservation = false := by
      rw [← Bool.not_eq_true]
      intro hr'
      rw [ReconciliationEvent.not_terminal_of_observation (t.checked r hr) hr'] at hterminal
      cases hterminal
    obtain ⟨o, ho, horun, hoobs⟩ := t.grounded r hr hres
    have hfree := List.all_eq_true.mp h.free o ho
    simp [ReconciliationEvent.clashes, horun, hrun, hoobs, hobs] at hfree

def add (t : ReconciliationEvents) (e : ReconciliationEvent) (h : t.Admits e) : ReconciliationEvents where
  rows := t.rows ++ [e]
  checked := by
    intro e' he'
    rcases List.mem_append.mp he' with h' | h'
    · exact t.checked e' h'
    rw [List.mem_singleton.mp h']
    exact h.checks
  nodup_id := by simpa using t.nodup_id.concat h.id_fresh
  unique := by
    refine List.pairwise_append.mpr ⟨t.unique, by simp, ?_⟩
    intro e' he' e'' he''
    rw [List.mem_singleton.mp he'']
    simpa using List.all_eq_true.mp h.free e' he'
  grounded := by
    intro e' he' hres
    rcases List.mem_append.mp he' with h' | h'
    · obtain ⟨o, ho, hrest⟩ := t.grounded e' h' hres
      exact ⟨o, List.mem_append_left _ ho, hrest⟩
    obtain rfl := List.mem_singleton.mp h'
    obtain ⟨o, ho, hrest⟩ := observed_iff.mp (h.required hres)
    exact ⟨o, List.mem_append_left _ ho, hrest⟩
  closed := by
    refine List.pairwise_append.mpr ⟨t.closed, by simp, ?_⟩
    intro e' he' e'' he'' hrun
    rw [List.mem_singleton.mp he''] at hrun
    rw [← Bool.not_eq_true]
    intro hterminal
    have hresolved := h.resolved_eq_false
    rw [← Bool.not_eq_true, resolved_iff] at hresolved
    exact hresolved ⟨e', he', hrun, hterminal⟩

@[simp] theorem rows_add (t : ReconciliationEvents) (e : ReconciliationEvent) (h : t.Admits e) :
    (t.add e h).rows = t.rows ++ [e] := rfl

section Add

variable {t : ReconciliationEvents} {e : ReconciliationEvent} (h : t.Admits e)

theorem history_add_self : (t.add e h).history e.run = t.history e.run ++ [e] := by simp [history]

theorem history_add_of_ne {run : Text × Uuid} (hrun : e.run ≠ run) : (t.add e h).history run = t.history run := by
  simp [history, hrun]

theorem history_prefix_add (run : Text × Uuid) : t.history run <+: (t.add e h).history run := by
  by_cases hrun : e.run = run
  · rw [← hrun, history_add_self]
    exact List.prefix_append _ _
  · rw [history_add_of_ne h hrun]

theorem Admits.add {e' : ReconciliationEvent} (h' : t.Admits e') (hrun : e.run ≠ e'.run) (hid : e'.id ≠ e.id) :
    (t.add e h).Admits e' where
  checks := h'.checks
  id_fresh := by
    rw [rows_add, List.map_append, List.mem_append, not_or]
    exact ⟨h'.id_fresh, by simpa using hid⟩
  free := by
    have hother : e.clashes e' = false := by simp [ReconciliationEvent.clashes, hrun]
    have hold := h'.free
    rw [ReconciliationEvents.free] at hold ⊢
    simp [hold, hother]
  required hres := by
    rw [observed, history_add_of_ne h hrun]
    exact h'.required hres
  open_run hres := by
    rw [resolved, history_add_of_ne h hrun]
    exact h'.open_run hres

end Add

end ReconciliationEvents

/-! ## The append guard -/

inductive FailureMember where
  | effectState
  | reconciliationRequired
  | targetErrorCode
  | targetResponseDigest
  | statusCode
  | targetHost

def TaskFailureDetails.member? (d : TaskFailureDetails) : FailureMember → Option Text
  | .effectState => if d.effectState = [] then none else some d.effectState
  | .reconciliationRequired => if d.reconciliationRequired = true then some "true" else none
  | .targetErrorCode => if d.targetErrorCode = [] then none else some d.targetErrorCode
  | .targetResponseDigest => if d.targetResponseDigest = [] then none else some d.targetResponseDigest
  | .statusCode => if d.statusCode = 0 then none else some (Nat.toDigits 10 d.statusCode)
  | .targetHost => if d.targetHost = [] then none else some d.targetHost

def failureStatusPattern : Text → Bool
  | [a, b, c] => (a == '4' || a == '5') && b.isDigit && c.isDigit
  | _ => false

def TaskRecordOf.runtimeActor {γ : Type} (t : TaskRecordOf γ) : Text :=
  match t.runtimeID with
  | none | some [] => "runtime:unknown"
  | some id => id

def observationReason : Text :=
  ["Runtime reported ", "a typed unknown ", "consequential eff", "ect; automatic r", "eplay is refused"].flatMap
    String.toList

namespace RunTables

def identifies (s : RunTables) (e : ReconciliationEvent) : Bool :=
  s.runs.rows.any fun r =>
    r.tenantID == e.tenantID && r.taskID == e.taskID && r.bindingID == e.bindingID &&
      r.contractHash == e.contractHash && r.targetActionID == e.targetActionID &&
      r.targetVersionHash == e.targetVersionHash && r.idempotencyDigest == e.businessIdempotencyDigest

def establishes (t : TaskRow) (e : ReconciliationEvent) (d : TaskFailureDetails) : Bool :=
  d.member? .effectState == some "unknown_effect_state".toList &&
    d.member? .reconciliationRequired == some "true".toList &&
    d.member? .targetErrorCode == some "idempotency_unresolved".toList &&
    (d.member? .targetResponseDigest).any contractHashPattern &&
    (d.member? .statusCode).any failureStatusPattern &&
    e.actorID == t.runtimeActor && e.reason == observationReason &&
    e.externalReference == (d.member? .targetResponseDigest).map (.runtimeResponseDigest, ·) &&
    (d.member? .targetHost).any (fun host => e.targetHost == some host) &&
    e.sourceStatusCode == some d.statusCode

def idempotencyBound (s : RunTables) (t : TaskRow) : Bool :=
  s.runs.rows.any fun r =>
    r.taskID == t.taskID && r.tenantID == t.tenantID &&
      s.bindings.rows.any fun b => b.id == r.bindingID && b.tenantID == r.tenantID && b.idempotencyRequired

def eligible (s : RunTables) (e : ReconciliationEvent) : Bool :=
  s.tasks.rows.any fun t =>
    s.idempotencyBound t && t.tenantID == e.tenantID && t.taskID == e.taskID && t.status == .failed &&
      t.failureDetails.any (establishes t e)

end RunTables

inductive AppendError where
  | identityMismatch
  | eligibilityNotEstablished
  | notRequired
  | terminalResolution
  | checkViolation
  | duplicateKey
deriving DecidableEq

/-- The trigger of migration 072; it also takes the advisory lock of the run and sets the time. -/
def enforceReconciliationEventAppend (s : RunTables) (t : ReconciliationEvents) (e : ReconciliationEvent) :
    Except AppendError Unit := do
  ensure .identityMismatch (s.identifies e)
  match e.eventType with
  | .unresolvedEffectObserved => ensure .eligibilityNotEstablished (s.eligible e)
  | .operatorResolution =>
    ensure .notRequired (t.observed e.run)
    ensure .terminalResolution (!t.resolved e.run)

namespace ReconciliationEvents

instance (t : ReconciliationEvents) (e : ReconciliationEvent) : Decidable (t.Admits e) :=
  decidable_of_iff
    (e.checks = true ∧ e.id ∉ t.rows.map ReconciliationEvent.id ∧ t.free e = true ∧
      (e.isObservation = false → t.observed e.run = true) ∧ (e.isObservation = false → t.resolved e.run = false))
    ⟨fun h => ⟨h.1, h.2.1, h.2.2.1, h.2.2.2.1, h.2.2.2.2⟩,
      fun h => ⟨h.checks, h.id_fresh, h.free, h.required, h.open_run⟩⟩

def append (s : RunTables) (e : ReconciliationEvent) (t : ReconciliationEvents) :
    Except AppendError ReconciliationEvents :=
  match enforceReconciliationEventAppend s t e with
  | .error refusal => .error refusal
  | .ok () =>
    if e.checks = false then .error .checkViolation
    else if h : t.Admits e then .ok (t.add e h) else .error .duplicateKey

variable {s : RunTables} {e : ReconciliationEvent} {t : ReconciliationEvents}

theorem append_eq_ok {t' : ReconciliationEvents} :
    t.append s e = .ok t' ↔
      enforceReconciliationEventAppend s t e = .ok () ∧ ∃ h : t.Admits e, t' = t.add e h := by
  rw [append]
  constructor
  · intro h
    split at h
    · cases h
    next hguard =>
    split at h
    · cases h
    split at h
    · next hallows => exact ⟨hguard, hallows, (Except.ok.inj h).symm⟩
    · cases h
  · rintro ⟨hguard, hallows, rfl⟩
    simp [hguard, hallows.checks, hallows]

theorem guard_ne_duplicateKey :
    enforceReconciliationEventAppend s t e ≠ .error .duplicateKey := by
  rw [enforceReconciliationEventAppend]
  cases s.identifies e with
  | false => exact fun h => nomatch h
  | true =>
    cases e.eventType with
    | unresolvedEffectObserved => cases s.eligible e <;> exact fun h => nomatch h
    | operatorResolution => cases t.observed e.run <;> cases t.resolved e.run <;> exact fun h => nomatch h

theorem guard_resolution
    (h : e.eventType = .operatorResolution) :
    enforceReconciliationEventAppend s t e = .ok () ↔
      s.identifies e = true ∧ t.observed e.run = true ∧ t.resolved e.run = false := by
  rw [enforceReconciliationEventAppend, h]
  constructor
  · intro hguard
    obtain ⟨hid, hrest⟩ := ok_of_bind_ok hguard
    obtain ⟨hobs, hres⟩ := ok_of_bind_ok hrest
    exact ⟨ensure_eq_ok.mp hid, ensure_eq_ok.mp hobs, by simpa using ensure_eq_ok.mp hres⟩
  rintro ⟨hid, hobs, hres⟩
  exact bind_ok (ensure_eq_ok.mpr hid)
    (bind_ok (ensure_eq_ok.mpr hobs) (ensure_eq_ok.mpr (by simp [hres])))

theorem guard_observation
    (h : e.eventType = .unresolvedEffectObserved) :
    enforceReconciliationEventAppend s t e = .ok () ↔ s.identifies e = true ∧ s.eligible e = true := by
  rw [enforceReconciliationEventAppend, h]
  constructor
  · intro hguard
    obtain ⟨hid, helig⟩ := ok_of_bind_ok hguard
    exact ⟨ensure_eq_ok.mp hid, ensure_eq_ok.mp helig⟩
  · rintro ⟨hid, helig⟩
    exact bind_ok (ensure_eq_ok.mpr hid) (ensure_eq_ok.mpr helig)

end ReconciliationEvents

end Overture
