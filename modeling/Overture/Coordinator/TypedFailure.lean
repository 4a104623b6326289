import Overture.Coordinator.Lifecycle
import Overture.Coordinator.ReconciliationEvents

/-!
# Failures whose effect is unknown

A failure report that a runtime typed as an unknown effect marks the task as failed and, in the
same transaction, inserts the observation that operators later resolve. Where the insertion is
refused the task is marked as failed on its own.
-/

namespace Overture

open RunTables Table ReconciliationEvent ReconciliationEvents List

structure RunStore where
  tables : RunTables
  events : ReconciliationEvents

namespace RunTables

def empty : RunTables := ⟨.empty, .empty, .empty, by simp [Table.empty]⟩

def update (now : Nat) (u : TaskUpdate) (s : RunTables) : RunTables :=
  { s with tasks := s.tasks.putAll ((s.tasks.rows.filter u.admits).map (u.set now)) }

theorem get?_tasks_update (now : Nat) (u : TaskUpdate) (s : RunTables) (k : Uuid) :
    (s.update now u).tasks.get? k = (s.tasks.get? k).map fun r => if u.admits r then u.set now r else r :=
  Db.get?_update u now s.tasks k

end RunTables

/-! ## The call -/

structure FailureReport where
  reason : Text
  details : TaskFailureDetails
  others : List Text := []

namespace FailureReport

def texts (report : FailureReport) : List Text :=
  report.reason :: report.details.source :: report.details.operation :: report.details.rejectionType ::
    report.details.message :: report.details.effectState :: report.details.targetErrorCode ::
    report.details.targetHost :: report.details.targetResponseDigest :: report.others

/-- Neither a text column nor a JSON string holds the null character. -/
def storable (report : FailureReport) : Bool := report.texts.all fun t => t.all (· != Char.ofNat 0)

def update (report : FailureReport) (taskID : Uuid) : TaskUpdate :=
  .markFailed taskID report.reason (some report.details)

end FailureReport

structure GeneratedColumns where
  id : Uuid
  createdAt : Nat

def observationOf (g : GeneratedColumns) (d : TaskFailureDetails) (t : TaskRow) (r : BoundRun) : ReconciliationEvent where
  id := g.id
  tenantID := r.tenantID
  taskID := r.taskID
  bindingID := r.bindingID
  contractHash := r.contractHash
  targetActionID := r.targetActionID
  targetVersionHash := r.targetVersionHash
  businessIdempotencyDigest := r.idempotencyDigest
  eventType := .unresolvedEffectObserved
  resolution := none
  actorType := .runtime
  actorID := t.runtimeActor
  actorEmail := none
  reason := observationReason
  externalReference := some (.runtimeResponseDigest, d.targetResponseDigest)
  targetHost := some (Text.trimSpace d.targetHost)
  sourceStatusCode := some d.statusCode
  operatorRequestID := none
  createdAt := g.createdAt

def RunTables.selectObservation (s : RunTables) (g : GeneratedColumns) (taskID : Uuid) (d : TaskFailureDetails) :
    Option ReconciliationEvent := do
  let r ← s.runs.get? taskID
  let b ← s.bindings.get? r.bindingID
  let t ← s.tasks.get? taskID
  if r.refersTo b = true ∧ b.idempotencyRequired = true ∧ t.tenantID = r.tenantID then
    return observationOf g d t r
  else none

def RunTables.insertObservation (s : RunTables) (g : GeneratedColumns) (taskID : Uuid) (d : TaskFailureDetails)
    (t : ReconciliationEvents) : Except AppendError ReconciliationEvents :=
  match s.selectObservation g taskID d with
  | none => .ok t
  | some e =>
    match t.append s e with
    | .error .duplicateKey => .ok t
    | result => result

/-- The step of the transaction that reports an error; a commit may have taken effect all the same. -/
inductive TxFault where
  | begin
  | update
  | insert
  | commit (done : Bool)
deriving DecidableEq

inductive TxResult where
  | committed
  | beginFailed
  | updateFailed
  | rejected
  | insertFailed
  | commitFailed
deriving DecidableEq

/-- An UPDATE outside of a transaction that reports an error may have taken effect all the same. -/
structure CallFaults where
  tx : Option TxFault := none
  write : Option Bool := none
  read : Bool := false

namespace RunStore

def empty : RunStore := ⟨.empty, .empty⟩

def updated (report : FailureReport) (taskID : Uuid) (s : RunStore) : RunTables :=
  s.tables.update 0 (report.update taskID)

def admits (report : FailureReport) (taskID : Uuid) (s : RunStore) : Bool :=
  s.tables.tasks.rows.any (report.update taskID).admits

def observedTx (fault : Option TxFault) (g : GeneratedColumns) (taskID : Uuid) (report : FailureReport)
    (s : RunStore) : TxResult × RunStore :=
  if fault = some .begin then (.beginFailed, s)
  else if fault = some .update ∨ report.storable = false then (.updateFailed, s)
  else if s.admits report taskID = false then (.rejected, s)
  else
    match (s.updated report taskID).insertObservation g taskID report.details s.events with
    | .error _ => (.insertFailed, s)
    | .ok events =>
      match fault with
      | some .insert => (.insertFailed, s)
      | some (.commit done) => (.commitFailed, if done = true then ⟨s.updated report taskID, events⟩ else s)
      | _ => (.committed, ⟨s.updated report taskID, events⟩)

def markFailedRecord (fault : Option Bool) (taskID : Uuid) (report : FailureReport) (s : RunStore) :
    Result Unit × RunStore :=
  if fault = some false ∨ report.storable = false then (.error (.database ""), s)
  else if fault = some true then (.error (.database ""), ⟨s.updated report taskID, s.events⟩)
  else if s.admits report taskID = false then (.error .transitionRejected, s)
  else (.ok (), ⟨s.updated report taskID, s.events⟩)

def ensureTaskFailedRecord (f : CallFaults) (taskID : Uuid) (report : FailureReport) (s : RunStore) :
    Result Unit × RunStore :=
  match markFailedRecord f.write taskID report s with
  | (.error .transitionRejected, s) =>
    let failed := (s.tables.tasks.get? taskID).any fun t => t.status == .failed
    (if f.read = false ∧ failed = true then .ok () else .error .transitionRejected, s)
  | result => result

def markFailedWithDetails (f : CallFaults) (g : GeneratedColumns) (taskID : Uuid) (report : FailureReport)
    (s : RunStore) : Result Unit × RunStore :=
  if isTypedReconciliationFailure (some report.details) = true then
    match observedTx f.tx g taskID report s with
    | (.committed, s) => (.ok (), s)
    | (.beginFailed, s) | (.insertFailed, s) => markFailedRecord f.write taskID report s
    | (.updateFailed, s) => (.error (.database ""), s)
    | (.rejected, s) => (.error .transitionRejected, s)
    | (.commitFailed, s) => ensureTaskFailedRecord f taskID report s
  else markFailedRecord f.write taskID report s

end RunStore

/-! ## Runs of the store -/

inductive RunStep where
  | register (b : ExecutionBinding)
  | createTask (columns : TaskColumns) (run : Option BoundRun)
  | update (now : Nat) (u : TaskUpdate)
  | observe (fault : Option TxFault) (g : GeneratedColumns) (taskID : Uuid) (report : FailureReport)
  | resolve (e : ReconciliationEvent)

namespace RunTables

def register (b : ExecutionBinding) (s : RunTables) : RunTables where
  tasks := s.tasks
  bindings := s.bindings.putNew b
  runs := s.runs
  bound := by
    intro r hr
    obtain ⟨b', hb', href⟩ := s.bound r hr
    have hget : (s.bindings.putNew b).get? b'.id = some b' := by
      rw [get?_putNew, get?_of_mem hb']
      rfl
    exact ⟨b', mem_of_get? hget, href⟩

def bindRun (r : BoundRun) (s : RunTables) (h : ∃ b ∈ s.bindings.rows, r.refersTo b = true) : RunTables where
  tasks := s.tasks
  bindings := s.bindings
  runs := s.runs.putNew r
  bound := by
    intro r' hr'
    rcases mem_putNew hr' with rfl | hold
    · exact h
    · exact s.bound r' hold

def insertTask (columns : TaskColumns) (s : RunTables) : RunTables := { s with tasks := s.tasks.put columns.row }

def createTask (columns : TaskColumns) (run : Option BoundRun) (s : RunTables) : RunTables :=
  if (s.tasks.get? columns.taskID).isSome = true then s
  else
    match run with
    | none => s.insertTask columns
    | some r =>
      if h : r.taskID = columns.taskID ∧ r.tenantID = columns.tenantID ∧
          ∃ b ∈ s.bindings.rows, r.refersTo b = true then
        (s.insertTask columns).bindRun r h.2.2
      else s

end RunTables

namespace RunStep

def apply : RunStep → RunStore → RunStore
  | register b, s => { s with tables := s.tables.register b }
  | createTask columns run, s => { s with tables := s.tables.createTask columns run }
  | update now u, s => { s with tables := s.tables.update now u }
  | observe fault g taskID report, s => (s.observedTx fault g taskID report).2
  | resolve e, s =>
    match e.eventType, s.events.append s.tables e with
    | .operatorResolution, .ok events => { s with events := events }
    | _, _ => s

end RunStep

namespace RunStore

def Reachable (s : RunStore) : Prop := ∃ steps : List RunStep, steps.foldl (fun s step => step.apply s) empty = s

def Failed (s : RunStore) (taskID : Uuid) : Prop := ∃ t, s.tables.tasks.get? taskID = some t ∧ t.status = .failed

def Observed (s : RunStore) (taskID : Uuid) : Prop :=
  ∃ e ∈ s.events.rows, e.taskID = taskID ∧ e.isObservation = true

structure Sound (s : RunStore) : Prop where
  failed : ∀ taskID, s.Observed taskID → s.Failed taskID
  owned : ∀ r ∈ s.tables.runs.rows, ∃ t, s.tables.tasks.get? r.taskID = some t ∧ t.tenantID = r.tenantID

theorem sound_empty : Sound empty where
  failed := by
    rintro taskID ⟨e, he, -⟩
    simp [empty, ReconciliationEvents.empty] at he
  owned := by simp [empty, RunTables.empty, Table.empty]

end RunStore

theorem TaskUpdate.tenantID_set (now : Nat) (u : TaskUpdate) (r : TaskRow) : (u.set now r).tenantID = r.tenantID := by
  cases u <;> rfl

namespace RunTables

def Keeps (s s' : RunTables) : Prop :=
  ∀ k t, s.tasks.get? k = some t →
    ∃ t', s'.tasks.get? k = some t' ∧ t'.tenantID = t.tenantID ∧ (t.status = .failed → t'.status = .failed)

theorem keeps_update (now : Nat) (u : TaskUpdate) (s : RunTables) : s.Keeps (s.update now u) := by
  intro k t ht
  refine ⟨if u.admits t = true then u.set now t else t, ?_, ?_⟩
  · rw [get?_tasks_update, ht]
    rfl
  split
  · next hallows =>
    refine ⟨u.tenantID_set now t, fun hfailed => ?_⟩
    rw [((u.evolves now hallows).2 (by rw [hfailed]; trivial)).status, hfailed]
  · exact ⟨rfl, id⟩

theorem keeps_insertTask {columns : TaskColumns} {s : RunTables} (hnew : s.tasks.get? columns.taskID = none) :
    s.Keeps (s.insertTask columns) := by
  intro k t ht
  refine ⟨t, ?_, rfl, id⟩
  rw [insertTask, get?_put, if_neg, ht]
  intro hk
  rw [← hk] at ht
  cases hnew.symm.trans ht

end RunTables

namespace RunTables

def Owned (s : RunTables) : Prop :=
  ∀ r ∈ s.runs.rows, ∃ t, s.tasks.get? r.taskID = some t ∧ t.tenantID = r.tenantID

theorem Owned.keeps {s s' : RunTables} (h : s.Owned) (hkeeps : s.Keeps s') (hruns : s'.runs = s.runs) : s'.Owned := by
  intro r hr
  rw [hruns] at hr
  obtain ⟨t, ht, htenant⟩ := h r hr
  obtain ⟨t', ht', htenant', -⟩ := hkeeps _ t ht
  exact ⟨t', ht', htenant'.trans htenant⟩

theorem createTask_sound (columns : TaskColumns) (run : Option BoundRun) {s : RunTables} (howned : s.Owned) :
    s.Keeps (s.createTask columns run) ∧ (s.createTask columns run).Owned := by
  have hsame : s.Keeps s := fun k t ht => ⟨t, ht, rfl, id⟩
  rw [createTask.eq_def]
  split
  · exact ⟨hsame, howned⟩
  next hnew =>
  have hkeeps := keeps_insertTask (by simpa using hnew)
  cases run with
  | none => exact ⟨hkeeps, howned.keeps hkeeps rfl⟩
  | some r =>
    dsimp only
    split
    · next h =>
      refine ⟨hkeeps, fun r' hr' => ?_⟩
      rcases mem_putNew hr' with rfl | hold
      · refine ⟨columns.row, ?_, h.2.1.symm⟩
        show (s.tasks.put columns.row).get? r'.taskID = some columns.row
        rw [get?_put]
        exact if_pos h.1.symm
      · exact howned.keeps hkeeps rfl r' hold
    · exact ⟨hsame, howned⟩

end RunTables

namespace RunStore

variable {s : RunStore}

theorem Sound.tables {tables : RunTables} (h : s.Sound) (hkeeps : s.tables.Keeps tables)
    (howned : tables.Owned) : Sound ⟨tables, s.events⟩ := by
  refine ⟨fun taskID hobs => ?_, howned⟩
  obtain ⟨t, ht, hfailed⟩ := h.failed taskID hobs
  obtain ⟨t', ht', -, hfailed'⟩ := hkeeps _ t ht
  exact ⟨t', ht', hfailed' hfailed⟩

theorem Sound.update (h : s.Sound) (now : Nat) (u : TaskUpdate) :
    Sound ⟨s.tables.update now u, s.events⟩ :=
  h.tables (keeps_update now u s.tables)
    (RunTables.Owned.keeps h.owned (keeps_update now u s.tables) rfl)

theorem Sound.append {e : ReconciliationEvent} {events : ReconciliationEvents} (h : s.Sound)
    (happend : s.events.append s.tables e = .ok events) : Sound ⟨s.tables, events⟩ := by
  obtain ⟨hguard, hallows, rfl⟩ := append_eq_ok.mp happend
  refine ⟨?_, h.owned⟩
  rintro taskID ⟨e', he', htask, hobs⟩
  rcases mem_append.mp he' with hold | hnew
  · exact h.failed taskID ⟨e', hold, htask, hobs⟩
  obtain rfl := mem_singleton.mp hnew
  have htype : e'.eventType = .unresolvedEffectObserved := by simpa [isObservation] using hobs
  obtain ⟨t, ht, hall⟩ := any_eq_true.mp ((guard_observation htype).mp hguard).2
  simp only [Bool.and_eq_true, beq_iff_eq] at hall
  refine ⟨t, ?_, hall.1.2⟩
  rw [← htask, ← hall.1.1.2]
  exact get?_of_mem ht

theorem Sound.insertObservation {g : GeneratedColumns} {taskID : Uuid} {d : TaskFailureDetails}
    {events : ReconciliationEvents} (h : s.Sound)
    (hins : s.tables.insertObservation g taskID d s.events = .ok events) : Sound ⟨s.tables, events⟩ := by
  rw [RunTables.insertObservation] at hins
  split at hins
  · rw [← Except.ok.inj hins]
    exact h
  split at hins
  · rw [← Except.ok.inj hins]
    exact h
  · exact h.append hins

theorem Sound.observedTx (h : s.Sound) (fault : Option TxFault) (g : GeneratedColumns) (taskID : Uuid)
    (report : FailureReport) : (s.observedTx fault g taskID report).2.Sound := by
  rw [RunStore.observedTx]
  split
  · exact h
  split
  · exact h
  split
  · exact h
  split
  · exact h
  next events hins =>
  have hdone : Sound ⟨s.updated report taskID, events⟩ :=
    Sound.insertObservation (s := ⟨s.updated report taskID, s.events⟩) (h.update 0 _) hins
  split
  · exact h
  · dsimp only
    split
    · exact hdone
    · exact h
  · exact hdone

theorem Sound.step (h : s.Sound) (step : RunStep) : (step.apply s).Sound := by
  cases step with
  | register b => exact ⟨h.failed, h.owned⟩
  | createTask columns run =>
    obtain ⟨hkeeps, howned⟩ := createTask_sound columns run h.owned
    exact h.tables hkeeps howned
  | update now u => exact h.update now u
  | observe fault g taskID report => exact h.observedTx fault g taskID report
  | resolve e =>
    rw [RunStep.apply]
    split
    · next happend => exact h.append happend
    · exact h

theorem Reachable.sound (h : s.Reachable) : s.Sound := by
  obtain ⟨steps, rfl⟩ := h
  have hall : ∀ (steps : List RunStep) (s : RunStore), s.Sound → (steps.foldl (fun s step => step.apply s) s).Sound := by
    intro steps
    induction steps with
    | nil => exact fun s hs => hs
    | cons step rest ih => exact fun s hs => ih _ (hs.step step)
  exact hall steps empty sound_empty

end RunStore

/-! ## When the observation is written -/

def RunTables.IdempotentRun (s : RunTables) (taskID : Uuid) : Prop :=
  ∃ r b, s.runs.get? taskID = some r ∧ s.bindings.get? r.bindingID = some b ∧ b.idempotencyRequired = true

structure Observable (t : TaskRow) (report : FailureReport) : Prop where
  active : t.status = .dispatched ∨ t.status = .checkpointed ∨ t.status = .recovering
  storable : report.storable = true
  digest : contractHashPattern report.details.targetResponseDigest = true
  host : Text.trimSpace report.details.targetHost = report.details.targetHost
  actor : t.runtimeActor.length ≤ 256

structure TypedFailure (d : TaskFailureDetails) : Prop where
  required : d.reconciliationRequired = true
  effectState : d.effectState = "unknown_effect_state"
  targetErrorCode : d.targetErrorCode = "idempotency_unresolved"
  statusCode : 400 ≤ d.statusCode ∧ d.statusCode ≤ 599
  digest : d.targetResponseDigest ≠ []
  host : d.targetHost ≠ []
  hostLength : (Text.trimSpace d.targetHost).length ≤ 253

theorem length_le_byteLength (t : Text) : t.length ≤ byteLength t := by
  rw [byteLength]
  induction t with
  | nil => simp
  | cons c t ih =>
    have hc : 0 < c.utf8Size := c.utf8Size_pos
    simp only [length_cons, map_cons, sum_cons]
    omega

theorem typedFailure_of_accepted {d : TaskFailureDetails} (h : isTypedReconciliationFailure (some d) = true) :
    TypedFailure d := by
  simp only [isTypedReconciliationFailure, Bool.and_eq_true, beq_iff_eq, decide_eq_true_eq] at h
  obtain ⟨⟨⟨⟨⟨⟨⟨⟨hreq, heff⟩, hcode⟩, hlow⟩, hhigh⟩, hdigest⟩, hhost⟩, hhost'⟩, -⟩ := h
  refine ⟨hreq, heff, hcode, ⟨hlow, hhigh⟩, ?_, ?_, (length_le_byteLength _).trans hhost'⟩
  · intro hnil
    rw [hnil] at hdigest
    cases hdigest
  intro hnil
  rw [hnil] at hhost
  cases hhost

theorem failureStatusPattern_of_range : ∀ n < 600, 400 ≤ n → failureStatusPattern (Nat.toDigits 10 n) = true := by
  decide +kernel

theorem isLowerHex_char : ∀ d < 16, isLowerHex (Hex.char d) = true := by decide

theorem contractHashPattern_sha256Hex (bytes : List UInt8) :
    contractHashPattern (CanonicalJson.sha256Hex bytes) = true := by
  rw [contractHashPattern, CanonicalJson.sha256Hex, Bool.and_eq_true]
  refine ⟨by simp, all_eq_true.mpr fun c hc => ?_⟩
  obtain ⟨d, hd, rfl⟩ := Hex.mem_encode hc
  exact isLowerHex_char d hd

namespace TypedFailure

variable {d : TaskFailureDetails} (h : TypedFailure d) (g : GeneratedColumns) (t : TaskRow) (r : BoundRun)
include h

/-- The guard and the predicate of the coordinator differ in the case of the digest and in the spaces
around the host. -/
theorem establishes_iff :
    establishes t (observationOf g d t r) d = true ↔
      contractHashPattern d.targetResponseDigest = true ∧ Text.trimSpace d.targetHost = d.targetHost := by
  have hcode := h.statusCode
  have hpattern := failureStatusPattern_of_range d.statusCode (by omega) hcode.1
  have heffect : d.member? .effectState = some "unknown_effect_state".toList := by
    rw [TaskFailureDetails.member?, h.effectState]
    rfl
  have herror : d.member? .targetErrorCode = some "idempotency_unresolved".toList := by
    rw [TaskFailureDetails.member?, h.targetErrorCode]
    rfl
  have hrequired : d.member? .reconciliationRequired = some "true".toList := if_pos h.required
  have hdigest : d.member? .targetResponseDigest = some d.targetResponseDigest := if_neg h.digest
  have hstatus : d.member? .statusCode = some (Nat.toDigits 10 d.statusCode) := if_neg (by omega)
  have hhost : d.member? .targetHost = some d.targetHost := if_neg h.host
  simp only [establishes, heffect, herror, hrequired, hdigest, hstatus, hhost, observationOf, hpattern,
    Option.any_some, Option.map_some, beq_self_eq_true, Bool.and_true, Bool.true_and, Bool.and_eq_true, beq_iff_eq,
    Option.some.injEq]

theorem checks_iff (hformat : contractHashPattern r.contractHash = true ∧ contractHashPattern r.targetVersionHash = true)
    (hdigest : contractHashPattern d.targetResponseDigest = true) :
    (observationOf g d t r).checks = true ↔ t.runtimeActor.length ≤ 256 := by
  have hlength : d.targetResponseDigest.length = 64 := by
    rw [contractHashPattern, Bool.and_eq_true, beq_iff_eq] at hdigest
    exact hdigest.1
  have hactor : 1 ≤ t.runtimeActor.length := by
    rw [TaskRecordOf.runtimeActor]
    split
    · decide
    · decide
    · next id hid _ => exact length_pos_iff.mpr fun hnil => hid (hnil ▸ rfl)
  have hreason : 1 ≤ observationReason.length ∧ observationReason.length ≤ 1000 := by decide +kernel
  have hcode := h.statusCode
  simp only [checks, shape, observationOf, Option.all_some, Option.all_none,
    hlength, hactor, hreason.1, hreason.2, h.hostLength, hformat.1, hformat.2, BoundRun.idempotencyDigest,
    contractHashPattern_sha256Hex, Option.isNone_none, beq_self_eq_true, Bool.and_true, Bool.true_and, decide_true,
    Bool.and_eq_true, decide_eq_true_eq]
  constructor
  · intro hall
    exact of_decide_eq_true hall.1.1
  · intro hle
    exact ⟨⟨decide_eq_true hle, by omega⟩, by omega⟩

end TypedFailure

namespace RunTables

variable {s : RunTables} {taskID : Uuid} {r : BoundRun} {b : ExecutionBinding} {t : TaskRow}

theorem refersTo_of_get? (hr : s.runs.get? taskID = some r) (hb : s.bindings.get? r.bindingID = some b) :
    r.refersTo b = true := by
  obtain ⟨b', hb', href⟩ := s.bound r (mem_of_get? hr)
  have hid : b'.id = r.bindingID := by
    simp only [BoundRun.refersTo, Bool.and_eq_true, beq_iff_eq] at href
    exact href.1.1.1.1
  rw [← hid, get?_of_mem hb'] at hb
  rw [← Option.some.inj hb]
  exact href

theorem hashFormat_of_refersTo (h : r.refersTo b = true) :
    contractHashPattern r.contractHash = true ∧ contractHashPattern r.targetVersionHash = true := by
  simp only [BoundRun.refersTo, Bool.and_eq_true, beq_iff_eq] at h
  obtain ⟨⟨⟨-, hcontract⟩, -⟩, hversion⟩ := h
  rw [← hcontract, ← hversion]
  exact b.hashFormat

theorem identifies_observationOf (hr : s.runs.get? taskID = some r) (g : GeneratedColumns) (d : TaskFailureDetails) :
    s.identifies (observationOf g d t r) = true := by
  refine any_eq_true.mpr ⟨r, mem_of_get? hr, ?_⟩
  simp [observationOf]

theorem idempotencyBound_of_get? (hr : s.runs.get? taskID = some r) (hb : s.bindings.get? r.bindingID = some b)
    (hreq : b.idempotencyRequired = true) (ht : s.tasks.get? taskID = some t) (howner : t.tenantID = r.tenantID) :
    s.idempotencyBound t = true := by
  have hkey : r.taskID = t.taskID := (key_of_get? hr).trans (key_of_get? ht).symm
  have href := refersTo_of_get? hr hb
  simp only [BoundRun.refersTo, Bool.and_eq_true, beq_iff_eq] at href
  refine any_eq_true.mpr ⟨r, mem_of_get? hr, ?_⟩
  simp only [hkey, howner, beq_self_eq_true, Bool.true_and, any_eq_true]
  refine ⟨b, mem_of_get? hb, ?_⟩
  simp [href.1.1.1.1, href.1.1.1.2, hreq]

theorem eligible_iff (hr : s.runs.get? taskID = some r) (hb : s.bindings.get? r.bindingID = some b)
    (hreq : b.idempotencyRequired = true) (ht : s.tasks.get? taskID = some t) (howner : t.tenantID = r.tenantID)
    (hstatus : t.status = .failed) {d : TaskFailureDetails} (hdetails : t.failureDetails = some d)
    (g : GeneratedColumns) :
    s.eligible (observationOf g d t r) = true ↔ establishes t (observationOf g d t r) d = true := by
  have hkey : t.taskID = r.taskID := (key_of_get? ht).trans (key_of_get? hr).symm
  rw [eligible, any_eq_true]
  constructor
  · rintro ⟨t', ht', hall⟩
    simp only [Bool.and_eq_true, beq_iff_eq] at hall
    have hsame : t'.taskID = t.taskID := hall.1.1.2.trans hkey.symm
    have hget := get?_of_mem ht'
    have hget' := get?_of_mem (mem_of_get? ht)
    obtain rfl : t' = t := by
      change s.tasks.get? t'.taskID = some t' at hget
      change s.tasks.get? t.taskID = some t at hget'
      rw [hsame, hget'] at hget
      exact (Option.some.inj hget).symm
    rw [hdetails] at hall
    exact hall.2
  intro hest
  have htenant : (observationOf g d t r).tenantID = t.tenantID := howner.symm
  have htask : (observationOf g d t r).taskID = t.taskID := hkey.symm
  refine ⟨t, mem_of_get? ht, ?_⟩
  simp [idempotencyBound_of_get? hr hb hreq ht howner, htenant, htask, hstatus, hdetails, hest]

end RunTables

namespace RunStore

variable {s : RunStore} {taskID : Uuid} {report : FailureReport} {t : TaskRow}

theorem admits_update_iff (ht : s.tables.tasks.get? taskID = some t) :
    (report.update taskID).admits t = true ↔
      t.status = .dispatched ∨ t.status = .checkpointed ∨ t.status = .recovering := by
  have hkey : t.taskID = taskID := key_of_get? ht
  simp [FailureReport.update, TaskUpdate.admits, hkey, or_assoc]

theorem admits_iff (ht : s.tables.tasks.get? taskID = some t) :
    s.admits report taskID = true ↔
      t.status = .dispatched ∨ t.status = .checkpointed ∨ t.status = .recovering := by
  have hupdate : (report.update taskID).admits t = true ↔ _ := admits_update_iff ht
  rw [← hupdate, admits, any_eq_true]
  constructor
  · rintro ⟨t', ht', hallows⟩
    have hkey : t'.taskID = taskID := by
      simp only [FailureReport.update, TaskUpdate.admits, Bool.and_eq_true, beq_iff_eq] at hallows
      exact hallows.1
    have hget : s.tables.tasks.get? t'.taskID = some t' := get?_of_mem ht'
    rw [hkey, ht] at hget
    rw [Option.some.inj hget]
    exact hallows
  · intro hallows
    exact ⟨t, mem_of_get? ht, hallows⟩

theorem get?_updated (ht : s.tables.tasks.get? taskID = some t) (hallows : (report.update taskID).admits t = true) :
    (s.updated report taskID).tasks.get? taskID = some ((report.update taskID).set 0 t) := by
  rw [updated, get?_tasks_update, ht, Option.map_some, if_pos hallows]

section

variable {r : BoundRun} {b : ExecutionBinding} (hr : s.tables.runs.get? taskID = some r)
  (hb : s.tables.bindings.get? r.bindingID = some b) (hreq : b.idempotencyRequired = true)
  (ht : s.tables.tasks.get? taskID = some t) (howner : t.tenantID = r.tenantID)
  (hallows : (report.update taskID).admits t = true) (htyped : TypedFailure report.details) (g : GeneratedColumns)
include hr hb hreq ht howner hallows

theorem selectObservation_updated :
    (s.updated report taskID).selectObservation g taskID report.details =
      some (observationOf g report.details ((report.update taskID).set 0 t) r) := by
  have href := refersTo_of_get? hr hb
  have htask := get?_updated ht hallows
  have hruns : (s.updated report taskID).runs.get? taskID = some r := hr
  have hbindings : (s.updated report taskID).bindings.get? r.bindingID = some b := hb
  have howner' : ((report.update taskID).set 0 t).tenantID = r.tenantID := howner
  simp only [selectObservation, hruns, hbindings, htask, Option.bind_eq_bind, Option.bind_some, href, hreq,
    howner', and_self, if_true, Option.pure_def]

include htyped

theorem guard_updated_iff :
    enforceReconciliationEventAppend (s.updated report taskID) s.events
        (observationOf g report.details ((report.update taskID).set 0 t) r) = .ok () ↔
      contractHashPattern report.details.targetResponseDigest = true ∧
        Text.trimSpace report.details.targetHost = report.details.targetHost := by
  have hruns : (s.updated report taskID).runs.get? taskID = some r := hr
  rw [guard_observation rfl,
    eligible_iff hruns hb hreq (get?_updated ht hallows) howner rfl rfl g, htyped.establishes_iff]
  exact and_iff_right (identifies_observationOf hruns g _)

theorem insertObservation_cases (hfree : ¬ s.Observed taskID)
    (hid : g.id ∉ s.events.rows.map ReconciliationEvent.id) :
    let e := observationOf g report.details ((report.update taskID).set 0 t) r
    let inserted := (s.updated report taskID).insertObservation g taskID report.details s.events
    (contractHashPattern report.details.targetResponseDigest = true ∧
        Text.trimSpace report.details.targetHost = report.details.targetHost ∧ t.runtimeActor.length ≤ 256 ∧
        ∃ h : s.events.Admits e, inserted = .ok (s.events.add e h)) ∨
      (¬ (contractHashPattern report.details.targetResponseDigest = true ∧
        Text.trimSpace report.details.targetHost = report.details.targetHost ∧ t.runtimeActor.length ≤ 256) ∧
        ∃ refusal, inserted = .error refusal) := by
  intro e inserted
  have hguard := guard_updated_iff hr hb hreq ht howner hallows htyped g
  have hformat := hashFormat_of_refersTo (refersTo_of_get? hr hb)
  have hins : inserted = match s.events.append (s.updated report taskID) e with
      | .error .duplicateKey => .ok s.events
      | result => result := by
    show insertObservation _ _ _ _ _ = _
    rw [insertObservation, selectObservation_updated hr hb hreq ht howner hallows g]
  rw [append] at hins
  cases hg : enforceReconciliationEventAppend (s.updated report taskID) s.events e with
  | error refusal =>
    have hno := mt hguard.mpr (by rw [hg]; simp)
    refine .inr ⟨fun hall => hno ⟨hall.1, hall.2.1⟩, refusal, ?_⟩
    rw [hins, hg]
    cases refusal with
    | duplicateKey => exact absurd hg guard_ne_duplicateKey
    | _ => rfl
  | ok _ =>
    obtain ⟨hdigest, hhost⟩ := hguard.mp hg
    have hchecks : e.checks = true ↔ t.runtimeActor.length ≤ 256 := htyped.checks_iff g _ r hformat hdigest
    rw [hg] at hins
    dsimp only at hins
    by_cases hactor : t.runtimeActor.length ≤ 256
    · have haccept : s.events.Admits e := by
        refine ⟨hchecks.mpr hactor, hid, all_eq_true.mpr fun e' he' => ?_, by simp [e, observationOf,
          ReconciliationEvent.isObservation], by simp [e, observationOf, ReconciliationEvent.isObservation]⟩
        by_contra hclash
        simp only [ReconciliationEvent.clashes, Bool.not_eq_true', Bool.not_eq_false, Bool.and_eq_true, beq_iff_eq,
          Bool.or_eq_true] at hclash
        obtain ⟨hrun, (⟨hobs, -⟩ | ⟨hsome, hnone⟩) | ⟨-, hterminal⟩⟩ := hclash
        · have hrow : e'.taskID = r.taskID := congrArg Prod.snd hrun
          have htask : e'.taskID = taskID := hrow.trans (key_of_get? hr)
          exact hfree ⟨e', he', htask, hobs⟩
        · rw [hnone] at hsome
          cases hsome
        · cases hterminal
      refine .inl ⟨hdigest, hhost, hactor, haccept, ?_⟩
      rw [hins, if_neg (by rw [haccept.checks]; simp), dif_pos haccept]
    · refine .inr ⟨fun hall => hactor hall.2.2, .checkViolation, ?_⟩
      rw [hins, if_pos (by rw [← Bool.not_eq_true, hchecks]; exact hactor)]

end

end RunStore

namespace RunStore

variable {s : RunStore} {taskID : Uuid} {report : FailureReport}

theorem Sound.markFailedRecord (h : s.Sound) (fault : Option Bool) :
    (s.markFailedRecord fault taskID report).2.Sound := by
  have hdone : Sound ⟨s.updated report taskID, s.events⟩ := h.update 0 _
  rw [RunStore.markFailedRecord]
  split
  · exact h
  split
  · exact hdone
  split
  · exact h
  · exact hdone

theorem Sound.ensureTaskFailedRecord (h : s.Sound) (f : CallFaults) :
    (s.ensureTaskFailedRecord f taskID report).2.Sound := by
  have hrecord : (s.markFailedRecord f.write taskID report).2.Sound := h.markFailedRecord f.write
  rw [RunStore.ensureTaskFailedRecord]
  split
  · next heq =>
    rw [heq] at hrecord
    exact hrecord
  · exact hrecord

theorem Sound.markFailedWithDetails (h : s.Sound) (f : CallFaults) (g : GeneratedColumns) :
    (s.markFailedWithDetails f g taskID report).2.Sound := by
  have htx := h.observedTx f.tx g taskID report
  rw [RunStore.markFailedWithDetails]
  split
  · split <;> rename_i heq <;> rw [heq] at htx
    · exact htx
    · exact htx.markFailedRecord f.write
    · exact htx.markFailedRecord f.write
    · exact htx
    · exact htx
    · exact htx.ensureTaskFailedRecord f
  · exact h.markFailedRecord f.write

theorem markFailedWithDetails_unmoved (g : GeneratedColumns)
    (htyped : isTypedReconciliationFailure (some report.details) = true)
    (h : report.storable = false ∨ s.admits report taskID = false) :
    (s.markFailedWithDetails {} g taskID report).2 = s := by
  rw [markFailedWithDetails, if_pos htyped, observedTx, if_neg (by simp)]
  by_cases hstorable : report.storable = false
  · rw [if_pos (.inr hstorable)]
  · rw [if_neg (by simp [hstorable]), if_pos (h.resolve_left hstorable)]

theorem markFailedWithDetails_moved (g : GeneratedColumns)
    (htyped : isTypedReconciliationFailure (some report.details) = true) (hstorable : report.storable = true)
    (hallows : s.admits report taskID = true) :
    (s.markFailedWithDetails {} g taskID report).2 =
      match (s.updated report taskID).insertObservation g taskID report.details s.events with
      | .ok events => ⟨s.updated report taskID, events⟩
      | .error _ => ⟨s.updated report taskID, s.events⟩ := by
  rw [markFailedWithDetails, if_pos htyped, observedTx, if_neg (by simp), if_neg (by simp [hstorable]),
    if_neg (by simp [hallows])]
  cases (s.updated report taskID).insertObservation g taskID report.details s.events with
  | ok events => rfl
  | error refusal =>
    show (s.markFailedRecord none taskID report).2 = _
    rw [markFailedRecord, if_neg (by simp [hstorable]), if_neg (by simp), if_neg (by simp [hallows])]

/-- A call without errors leaves the run failed and observed if it was so before, or if the report is one
that the guard accepts. -/
theorem failed_and_observed_iff (hsound : s.Sound) (hrun : s.tables.IdempotentRun taskID)
    (htyped : isTypedReconciliationFailure (some report.details) = true) {g : GeneratedColumns}
    (hid : g.id ∉ s.events.rows.map ReconciliationEvent.id) :
    let s' := (s.markFailedWithDetails {} g taskID report).2
    (s'.Failed taskID ∧ s'.Observed taskID) ↔
      (s.Failed taskID ∧ s.Observed taskID) ∨
        ∃ t, s.tables.tasks.get? taskID = some t ∧ Observable t report := by
  intro s'
  obtain ⟨r, b, hr, hb, hreq⟩ := hrun
  obtain ⟨t, ht, howner⟩ := hsound.owned r (mem_of_get? hr)
  rw [key_of_get? hr] at ht
  by_cases hmoved : report.storable = true ∧ s.admits report taskID = true
  · obtain ⟨hstorable, hallows⟩ := hmoved
    have hactive := (admits_iff ht).mp hallows
    have hupdate : (report.update taskID).admits t = true := (admits_update_iff ht).mpr hactive
    have hnot : ¬ s.Failed taskID := by
      rintro ⟨t', ht', hfailed⟩
      rw [ht] at ht'
      rw [← Option.some.inj ht'] at hfailed
      simp [hfailed] at hactive
    have hunobserved : ¬ s.Observed taskID := mt (hsound.failed taskID) hnot
    have hs' := markFailedWithDetails_moved g htyped hstorable hallows
    have hcases := insertObservation_cases hr hb hreq ht howner hupdate (typedFailure_of_accepted htyped) g
      hunobserved hid
    have hrow := get?_updated ht hupdate
    rcases hcases with ⟨hdigest, hhost, hactor, haccept, hins⟩ | ⟨hno, refusal, hins⟩
    · rw [hins] at hs'
      have hfailed : s'.Failed taskID := ⟨_, by rw [show s' = _ from hs']; exact hrow, rfl⟩
      have hobs : s'.Observed taskID := by
        rw [show s' = _ from hs']
        have hkey : r.taskID = taskID := key_of_get? hr
        exact ⟨_, mem_append_right _ (mem_singleton.mpr rfl), hkey, rfl⟩
      exact iff_of_true ⟨hfailed, hobs⟩ (.inr ⟨t, ht, hactive, hstorable, hdigest, hhost, hactor⟩)
    rw [hins] at hs'
    refine iff_of_false ?_ ?_
    · rintro ⟨-, hobs⟩
      rw [show s' = _ from hs'] at hobs
      exact hunobserved hobs
    rintro (⟨hfailed, -⟩ | ⟨t', ht', hobs⟩)
    · exact hnot hfailed
    rw [ht] at ht'
    obtain rfl := Option.some.inj ht'
    exact hno ⟨hobs.digest, hobs.host, hobs.actor⟩
  have hs' : s' = s := by
    apply markFailedWithDetails_unmoved g htyped
    by_contra hcon
    exact hmoved (by simpa using hcon)
  rw [hs']
  refine ⟨.inl, ?_⟩
  rintro (h | ⟨t', ht', hobs⟩)
  · exact h
  rw [ht] at ht'
  obtain rfl := Option.some.inj ht'
  exact absurd ⟨hobs.storable, (admits_iff ht).mpr hobs.active⟩ hmoved

end RunStore

/-- No run that has not failed has an observation, after any writes and whichever statement reports an error. A call
without errors for an accepted report leaves the bound run failed and observed exactly where it was so before, or where
the task is active, the texts can be stored, the digest is in lower case, the host has no spaces around it and the name
of the runtime fits the column. -/
theorem typed_failure_observed {s : RunStore} (hs : s.Reachable) :
    (∀ taskID, s.Observed taskID → s.Failed taskID) ∧
      ∀ taskID report, s.tables.IdempotentRun taskID →
        isTypedReconciliationFailure (some report.details) = true → ∀ g : GeneratedColumns,
          (∀ f id, (s.markFailedWithDetails f g taskID report).2.Observed id →
            (s.markFailedWithDetails f g taskID report).2.Failed id) ∧
          (g.id ∉ s.events.rows.map ReconciliationEvent.id →
            (((s.markFailedWithDetails {} g taskID report).2.Failed taskID ∧
                (s.markFailedWithDetails {} g taskID report).2.Observed taskID) ↔
              (s.Failed taskID ∧ s.Observed taskID) ∨
                ∃ t, s.tables.tasks.get? taskID = some t ∧ Observable t report)) := by
  refine ⟨hs.sound.failed, fun taskID report hrun htyped g => ⟨fun f id => ?_, fun hid => ?_⟩⟩
  · exact (hs.sound.markFailedWithDetails f g).failed id
  · exact RunStore.failed_and_observed_iff hs.sound hrun htyped hid

def sampleDigest (c : Char) : Text := replicate 64 c

def sampleBinding : ExecutionBinding where
  id := 1
  tenantID := "tenant"
  contractHash := sampleDigest 'c'
  targetActionID := 2
  targetVersionHash := sampleDigest 'd'
  idempotencyRequired := true
  hashFormat := by decide

def sampleBoundRun : BoundRun where
  taskID := 3
  tenantID := "tenant"
  bindingID := 1
  contractHash := sampleDigest 'c'
  targetActionID := 2
  targetVersionHash := sampleDigest 'd'
  businessIdempotencyKey := "order"

def sampleSteps : List RunStep :=
  [.register sampleBinding, .createTask ⟨3, "tenant", [], [], none⟩ (some sampleBoundRun),
   .update 0 (.markDispatched 3 "runtime" [])]

def sampleRunStore : RunStore := sampleSteps.foldl (fun s step => step.apply s) .empty

def sampleReport (c : Char) : FailureReport where
  reason := "unknown"
  details :=
    { statusCode := 409
      effectState := "unknown_effect_state"
      reconciliationRequired := true
      targetErrorCode := "idempotency_unresolved"
      targetHost := "host"
      targetResponseDigest := sampleDigest c }

theorem sampleRunStore_reachable : sampleRunStore.Reachable := ⟨sampleSteps, rfl⟩

theorem sampleRunStore_idempotentRun : sampleRunStore.tables.IdempotentRun 3 :=
  ⟨sampleBoundRun, sampleBinding, rfl, rfl, rfl⟩

/-- A digest in lower case is observed. -/
theorem lower_case_observed :
    sampleRunStore.Reachable ∧ sampleRunStore.tables.IdempotentRun 3 ∧
      isTypedReconciliationFailure (some (sampleReport 'a').details) = true ∧
      (sampleRunStore.markFailedWithDetails {} ⟨4, 0⟩ 3 (sampleReport 'a')).2.Observed 3 := by
  have htyped : isTypedReconciliationFailure (some (sampleReport 'a').details) = true := by decide +kernel
  refine ⟨sampleRunStore_reachable, sampleRunStore_idempotentRun, htyped, ?_⟩
  have hall := (typed_failure_observed sampleRunStore_reachable).2 3 (sampleReport 'a') sampleRunStore_idempotentRun
    htyped ⟨4, 0⟩
  refine ((hall.2 (by decide +kernel)).mpr (.inr ⟨_, rfl, .inl rfl, ?_, ?_, ?_, ?_⟩)).2 <;> decide +kernel

/-- The predicate accepts a digest in upper case; the guard refuses it, and the run fails with no
observation. -/
theorem upper_case_unobserved :
    sampleRunStore.Reachable ∧ sampleRunStore.tables.IdempotentRun 3 ∧
      isTypedReconciliationFailure (some (sampleReport 'A').details) = true ∧
      (sampleRunStore.markFailedWithDetails {} ⟨4, 0⟩ 3 (sampleReport 'A')).1 = .ok () ∧
      ¬ (sampleRunStore.markFailedWithDetails {} ⟨4, 0⟩ 3 (sampleReport 'A')).2.Observed 3 := by
  refine ⟨sampleRunStore_reachable, sampleRunStore_idempotentRun, by decide +kernel, by decide +kernel, ?_⟩
  rintro ⟨e, he, -⟩
  have hnone : (sampleRunStore.markFailedWithDetails {} ⟨4, 0⟩ 3 (sampleReport 'A')).2.events.rows = [] := by
    decide +kernel
  rw [hnone] at he
  cases he

end Overture
