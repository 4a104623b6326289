import Overture.Coordinator.DatabaseSteps
import Overture.Coordinator.Store

/-!
# The life of a task record

Any number of calls of the store run at once. However their statements interleave, a record
that has reached a terminal status keeps it, and a record that a runtime works on names that
runtime. A status changes only in the ways that the coordinator's checks name.
-/

namespace Overture

open Interleave RowStore

inductive StoreCall where
  | createTask (task : NewTask)
  | createTaskWithExecutionInputRefs (task : NewTask)
  | markDispatched (taskID : Uuid) (runtimeID runtimeEndpoint : Text)
  | saveCheckpoint (cp : CheckpointPayload)
  | markCompleted (taskID : Uuid)
  | markFailed (taskID : Uuid) (reason : Text)
  | markFailedWithDetails (taskID : Uuid) (reason : Text) (details : Option TaskFailureDetails)
  | markCanceled (taskID : Uuid)
  | markRecovering (runtimeID : Text)
  | markApprovalRequired (taskID : Uuid) (reason : Text)
  | markApprovedDispatched (taskID : Uuid) (tenantID runtimeID runtimeEndpoint : Text)
  | markApprovalRejected (taskID : Uuid) (tenantID reason : Text) (details : Option TaskFailureDetails)
  | saveExecutionArtifacts (taskID : Uuid) (executionEnvelope executionReceipt : Text)
  | reapExpiredDeadlines

def noAsks : Interface := ⟨Empty, fun q => nomatch q⟩

def discard {α : Type} (p : Call noAsks StoreCall (Result α)) : Call noAsks StoreCall (Result Unit) := do
  match ← p with
  | .ok _ => return .ok ()
  | .error e => return .error e

def StoreCall.body : StoreCall → Call noAsks StoreCall (Result Unit)
  | createTask task => discard (Overture.createTask task)
  | createTaskWithExecutionInputRefs task => discard (Overture.createTaskWithExecutionInputRefs task)
  | markDispatched id runtimeID endpoint => Overture.markDispatched id runtimeID endpoint
  | saveCheckpoint cp => Overture.saveCheckpoint cp
  | markCompleted id => Overture.markCompleted id
  | markFailed id reason => Overture.markFailed id reason
  | markFailedWithDetails id reason details => Overture.markFailedWithDetails id reason details
  | markCanceled id => Overture.markCanceled id
  | markRecovering runtimeID => discard (Overture.markRecovering runtimeID)
  | markApprovalRequired id reason => Overture.markApprovalRequired id reason
  | markApprovedDispatched id tenantID runtimeID endpoint =>
    Overture.markApprovedDispatched id tenantID runtimeID endpoint
  | markApprovalRejected id tenantID reason details => Overture.markApprovalRejected id tenantID reason details
  | saveExecutionArtifacts id envelope receipt => Overture.saveExecutionArtifacts id envelope receipt
  | reapExpiredDeadlines => do
    Overture.reapExpiredDeadlines
    return .ok ()

def storeSystem (jsonb : Text → Option Text) : System (sql noAsks) StoreCall (Result Unit) Db where
  Choice := Choice noAsks
  exec := Db.exec jsonb
  body := StoreCall.body
  external _ := true
  forked _ _ _ db := db
  returned _ db := db
  Event := Empty
  env e := nomatch e

def emptyStore : Pool (sql noAsks) StoreCall (Result Unit) Db := ⟨.empty, []⟩

namespace TaskRecordOf

variable {γ : Type}

structure Consistent (r : TaskRecordOf γ) : Prop where
  runtime : r.status = .dispatched ∨ r.status = .checkpointed ∨ r.status = .recovering ∨ r.status = .completed →
    r.runtimeID.isSome = true
  completed : r.completedAt.isSome = true ↔ r.status = .completed

structure Frozen (r r' : TaskRecordOf γ) : Prop where
  status : r'.status = r.status
  runtimeID : r'.runtimeID = r.runtimeID
  lastCheckpoint : r'.lastCheckpoint = r.lastCheckpoint
  failureReason : r'.failureReason = r.failureReason
  completedAt : r'.completedAt = r.completedAt
  canceledAt : r'.canceledAt = r.canceledAt

theorem Frozen.refl (r : TaskRecordOf γ) : r.Frozen r := ⟨rfl, rfl, rfl, rfl, rfl, rfl⟩

theorem Frozen.trans {r₁ r₂ r₃ : TaskRecordOf γ} (h₁ : r₁.Frozen r₂) (h₂ : r₂.Frozen r₃) : r₁.Frozen r₃ where
  status := h₂.status.trans h₁.status
  runtimeID := h₂.runtimeID.trans h₁.runtimeID
  lastCheckpoint := h₂.lastCheckpoint.trans h₁.lastCheckpoint
  failureReason := h₂.failureReason.trans h₁.failureReason
  completedAt := h₂.completedAt.trans h₁.completedAt
  canceledAt := h₂.canceledAt.trans h₁.canceledAt

def Evolves (r r' : TaskRecordOf γ) : Prop := (r.Consistent → r'.Consistent) ∧ (r.status.Terminal → r.Frozen r')

theorem Evolves.refl (r : TaskRecordOf γ) : r.Evolves r := ⟨id, fun _ => .refl r⟩

theorem Evolves.trans {r₁ r₂ r₃ : TaskRecordOf γ} (h₁ : r₁.Evolves r₂) (h₂ : r₂.Evolves r₃) : r₁.Evolves r₃ := by
  refine ⟨h₂.1 ∘ h₁.1, fun hterm => ?_⟩
  have hfrozen := h₁.2 hterm
  exact hfrozen.trans (h₂.2 (by rw [hfrozen.status]; exact hterm))

end TaskRecordOf

theorem TaskUpdate.evolves {u : TaskUpdate} {r : TaskRow} (now : Nat) (h : u.admits r = true) :
    r.Evolves (u.set now r) := by
  constructor
  · rintro ⟨hruntime, hcompleted⟩
    cases u <;> simp only [admits, Bool.and_eq_true, Bool.or_eq_true, beq_iff_eq] at h <;>
      constructor <;> simp only [set] <;> grind
  intro hterm
  cases u <;> simp only [admits, Bool.and_eq_true, Bool.or_eq_true, beq_iff_eq] at h <;>
    first | exact ⟨rfl, rfl, rfl, rfl, rfl, rfl⟩ | grind [TaskStatus.Terminal]

theorem TaskColumns.consistent (columns : TaskColumns) : (columns.row : TaskRow).Consistent :=
  ⟨by simp [row], by simp [row]⟩

theorem lifecycleLaw : Db.Law TaskRecordOf.Evolves TaskRecordOf.Consistent where
  refl := TaskRecordOf.Evolves.refl
  trans _ _ _ h₁ h₂ := h₁.trans h₂
  columns := TaskColumns.consistent

structure StoreInv (db : Db) : Prop where
  isolated : db.Isolated
  derived : RowStore.Derived TaskRecordOf.Evolves TaskRecordOf.Consistent db
  consistent : ∀ id r, db.rows.get? id = some r → r.Consistent

theorem StoreInv.empty : StoreInv .empty where
  isolated := ⟨fun _ _ _ h => by simp [RowStore.empty] at h, fun _ _ _ h => by simp [RowStore.empty] at h⟩
  derived _ _ _ _ h := by simp [RowStore.empty] at h
  consistent _ _ h := by simp [RowStore.empty, Table.empty, Table.get?] at h

theorem storeInv_exec {jsonb : Text → Option Text} {A : Interface} {c : Choice A} {i : Nat} {o : Op A} {db db' : Db}
    {res : o.Res} (h : Db.exec jsonb c i o db = some (res, db')) (hinv : StoreInv db) :
    StoreInv db' ∧ RowStore.Moved TaskRecordOf.Evolves TaskRecordOf.Consistent db db' := by
  have hstep := Db.steps_exec lifecycleLaw hinv.isolated hinv.derived h
    fun _ u' _ _ now _ hallows => TaskUpdate.evolves now hallows
  refine ⟨⟨hstep.isolated, hstep.derived, fun id r' hr' => ?_⟩, hstep.moved⟩
  have hahead := hstep.moved id
  rw [hr'] at hahead
  cases hr : db.rows.get? id with
  | none =>
    rw [hr] at hahead
    obtain ⟨r, hcons, hev⟩ := hahead
    exact hev.1 hcons
  | some r =>
    rw [hr] at hahead
    exact hahead.1 (hinv.consistent id r hr)

theorem storeInv_reaches {jsonb : Text → Option Text} {p q : Pool (sql noAsks) StoreCall (Result Unit) Db}
    (h : (storeSystem jsonb).Reaches (storeSystem jsonb).always p q) (hinv : StoreInv p.state) :
    StoreInv q.state ∧ RowStore.Moved TaskRecordOf.Evolves TaskRecordOf.Consistent p.state q.state := by
  refine h.relates (fun db db' => StoreInv db → StoreInv db' ∧
    RowStore.Moved TaskRecordOf.Evolves TaskRecordOf.Consistent db db') ?_ ?_ ?_ ?_ ?_ ?_ hinv
  · exact fun db hdb => ⟨hdb, (quiet_refl db).moved TaskRecordOf.Evolves.refl⟩
  · intro db₁ db₂ db₃ h₁ h₂ hdb
    obtain ⟨hinv₂, hmoved₂⟩ := h₁ hdb
    obtain ⟨hinv₃, hmoved₃⟩ := h₂ hinv₂
    exact ⟨hinv₃, hmoved₂.trans (fun _ _ _ h₁ h₂ => h₁.trans h₂) hmoved₃⟩
  · exact fun c i o db res db' _ hexec hdb => storeInv_exec hexec hdb
  · exact fun _ _ _ db hdb => ⟨hdb, (quiet_refl db).moved TaskRecordOf.Evolves.refl⟩
  · exact fun _ db hdb => ⟨hdb, (quiet_refl db).moved TaskRecordOf.Evolves.refl⟩
  · exact fun e => nomatch e

/-- Whatever calls run and however their statements interleave: a stored record is consistent, and once it
is terminal no later step changes what it says. -/
theorem taskRecord_lifecycle {jsonb : Text → Option Text} {p : Pool (sql noAsks) StoreCall (Result Unit) Db}
    (h : (storeSystem jsonb).Reaches (storeSystem jsonb).always emptyStore p) :
    (∀ id r, p.state.rows.get? id = some r → r.Consistent) ∧
    ∀ q, (storeSystem jsonb).Reaches (storeSystem jsonb).always p q →
      ∀ id r, p.state.rows.get? id = some r → r.status.Terminal →
        ∃ r', q.state.rows.get? id = some r' ∧ r.Frozen r' := by
  obtain ⟨hinv, -⟩ := storeInv_reaches h StoreInv.empty
  refine ⟨hinv.consistent, fun q hq id r hr hterm => ?_⟩
  have hahead := (storeInv_reaches hq hinv).2 id
  rw [hr] at hahead
  cases hr' : q.state.rows.get? id with
  | none =>
    rw [hr'] at hahead
    exact hahead.elim
  | some r' =>
    rw [hr'] at hahead
    exact ⟨r', rfl, hahead.2 hterm⟩

def completedRun : List (Move StoreCall (Choice noAsks) Empty) :=
  let task : NewTask := ⟨⟨1, "tenant", "null", "key", none⟩, none, 0⟩
  let done : Choice noAsks := ⟨.done, 0, fun q => nomatch q⟩
  [.start (.createTask task), .step 0 done, .start (.markDispatched 1 "runtime" []), .step 1 done,
    .start (.markCompleted 1), .step 2 done]

theorem taskRecord_lifecycle_completed :
    ∃ p, (storeSystem some).Reaches (storeSystem some).always emptyStore p ∧
      ((p.state.rows.get? 1).map TaskRecordOf.status = some .completed) ∧
      ∀ id r, p.state.rows.get? id = some r → r.Consistent := by
  have hrun : (((storeSystem some).run emptyStore completedRun).map fun p =>
      (p.state.rows.get? 1).map TaskRecordOf.status) = some (some .completed) := by decide +kernel
  obtain ⟨p, hp, hstatus⟩ := Option.map_eq_some_iff.mp hrun
  have hreach := System.reaches_of_run hp
  exact ⟨p, hreach, hstatus, (taskRecord_lifecycle hreach).1⟩

/-- The ways of a status, by the coordinator's own checks. -/
def TaskStatus.leads (s : TaskStatus) : TaskStatus → Bool
  | .pending => false
  | .dispatched => taskAllowsDispatch s || taskAwaitingApproval s
  | .checkpointed | .completed => taskAllowsRuntimeMutation s
  | .failed => taskAllowsCancellation s || taskAwaitingApproval s
  | .recovering => s == .dispatched || s == .checkpointed
  | .canceled => taskAllowsCancellation s
  | .approvalRequired => taskAllowsDispatch s

structure TaskRecordOf.Continues {γ : Type} (r r' : TaskRecordOf γ) : Prop where
  path : Relation.ReflTransGen (fun s s' => TaskStatus.leads s s') r.status r'.status
  fixed : (r'.tenantID, r'.taskDefinition, r'.idempotencyKey, r'.deadlineAt) =
    (r.tenantID, r.taskDefinition, r.idempotencyKey, r.deadlineAt)
  attempts : r.attemptCount ≤ r'.attemptCount
  effect : r.hasIrreversibleEffect = true → r'.hasIrreversibleEffect = true
  runtime : r.runtimeID.isSome = true → r'.runtimeID.isSome = true
  checkpoint : r.lastCheckpoint.isSome = true → r'.lastCheckpoint.isSome = true

theorem TaskUpdate.continues (u : TaskUpdate) (r : TaskRow) (now : Nat) (h : u.admits r = true) :
    r.Continues (u.set now r) := by
  have hpath : Relation.ReflTransGen (fun s s' => TaskStatus.leads s s') r.status (u.set now r).status := by
    cases u <;> simp only [admits, Bool.and_eq_true, Bool.or_eq_true, beq_iff_eq] at h <;>
      first
      | exact .refl
      | exact .single (by grind [set, TaskStatus.leads, taskAllowsDispatch, taskAwaitingApproval,
          taskAllowsRuntimeMutation, taskAllowsCancellation])
  cases u <;> exact ⟨hpath, rfl, by simp [set], by simp [set], by simp [set], by simp [set]⟩

def Inserted (r : TaskRow) : Prop := ∃ columns : TaskColumns, r = columns.row

theorem continuesLaw : Db.Law TaskRecordOf.Continues Inserted where
  refl _ := ⟨.refl, rfl, le_rfl, id, id, id⟩
  trans _ _ _ h₁ h₂ := ⟨h₁.path.trans h₂.path, h₂.fixed.trans h₁.fixed, h₁.attempts.trans h₂.attempts,
    h₂.effect ∘ h₁.effect, h₂.runtime ∘ h₁.runtime, h₂.checkpoint ∘ h₁.checkpoint⟩
  columns columns := ⟨columns, rfl⟩

/-- Any calls whatever that send the modelled statements. -/
def databaseSystem {A : Interface} {L R : Type} (jsonb : Text → Option Text) (body : L → Call A L R) :
    System (sql A) L R Db where
  Choice := Choice A
  exec := Db.exec jsonb
  body := body
  external _ := true
  forked _ _ _ db := db
  returned _ db := db
  Event := Empty
  env e := nomatch e

section Moves

variable {A : Interface} {L R : Type} {jsonb : Text → Option Text} {body : L → Call A L R}
  {p q : Pool (sql A) L R Db}

theorem moved_reaches {E : TaskRow → TaskRow → Prop} {N : TaskRow → Prop} (law : Db.Law E N)
    (hE : ∀ (u : TaskUpdate) r now, u.admits r = true → E r (u.set now r))
    (h : (databaseSystem jsonb body).Reaches (databaseSystem jsonb body).always p q)
    (hp : p.state.Isolated ∧ Derived E N p.state) :
    (q.state.Isolated ∧ Derived E N q.state) ∧ Moved E N p.state q.state := by
  have hquiet : ∀ db : Db, db.Isolated ∧ Derived E N db → (db.Isolated ∧ Derived E N db) ∧ Moved E N db db :=
    fun db hdb => ⟨hdb, (quiet_refl db).moved law.refl⟩
  refine h.relates (fun db db' => db.Isolated ∧ Derived E N db →
    (db'.Isolated ∧ Derived E N db') ∧ Moved E N db db') hquiet ?_ ?_ (fun _ _ _ => hquiet) (fun _ => hquiet) ?_ hp
  · intro db₁ db₂ db₃ h₁ h₂ hdb
    obtain ⟨hinv₂, hmoved₂⟩ := h₁ hdb
    obtain ⟨hinv₃, hmoved₃⟩ := h₂ hinv₂
    exact ⟨hinv₃, hmoved₂.trans law.trans hmoved₃⟩
  · intro c i o db res db' _ hexec hdb
    have hstep := Db.steps_exec law hdb.1 hdb.2 hexec fun _ u _ _ now r => hE u r now
    exact ⟨⟨hstep.isolated, hstep.derived⟩, hstep.moved⟩
  · exact fun e => nomatch e

/-- However the statements of any calls interleave, no record is lost and each continues what it was: what is new
continues an inserted row. -/
theorem taskRecords_continue (hp : (databaseSystem jsonb body).Reaches (databaseSystem jsonb body).always ⟨.empty, []⟩ p)
    (hq : (databaseSystem jsonb body).Reaches (databaseSystem jsonb body).always p q) :
    Moved TaskRecordOf.Continues Inserted p.state q.state := by
  have hempty := moved_reaches continuesLaw TaskUpdate.continues hp
    ⟨StoreInv.empty.isolated, fun _ _ _ _ h => by simp [RowStore.empty] at h⟩
  exact (moved_reaches continuesLaw TaskUpdate.continues hq hempty.1).2

end Moves

theorem taskRecords_continue_completed : ∃ q : Pool (sql noAsks) StoreCall (Result Unit) Db,
    (q.state.rows.get? 1).map TaskRecordOf.status = some .completed ∧
      Moved TaskRecordOf.Continues Inserted .empty q.state := by
  have hrun : (((databaseSystem some StoreCall.body).run emptyStore completedRun).map fun q =>
      (q.state.rows.get? 1).map TaskRecordOf.status) = some (some .completed) := by decide +kernel
  obtain ⟨q, hq, hstatus⟩ := Option.map_eq_some_iff.mp hrun
  exact ⟨q, hstatus, taskRecords_continue .refl (System.reaches_of_run hq)⟩

end Overture
