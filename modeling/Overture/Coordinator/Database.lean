import Overture.Lib.Interleave
import Overture.Lib.RowStore
import Overture.Coordinator.Record

/-!
# The statements of the store

The tables `task_records` and `wal_checkpoints` and the SQL statements on them, one constructor for each statement of
the source and one atomic step each. A statement waits for rows that another transaction has locked. If it reports an
error it had no effect, or it had one and only the answer was lost.
-/

namespace Overture

open Interleave

/-- A row of `wal_checkpoints`. No column holds `writer`: it is the call that inserted the row. -/
structure WalRow where
  taskID : Uuid
  stepIndex : Nat
  walEntries : Text
  writer : Nat

/-- The columns of the primary key, of the index on tenant and idempotency key, and of the foreign key. -/
def taskSchema : Schema TaskRow WalRow Uuid (Text × Text) where
  key := TaskRecordOf.taskID
  index r := (r.tenantID, r.idempotencyKey)
  ref := WalRow.taskID

abbrev Db := RowStore taskSchema

structure TaskColumns where
  taskID : Uuid
  (tenantID taskDefinition idempotencyKey : Text)
  deadlineAt : Option Nat

def TaskColumns.row {γ : Type} (columns : TaskColumns) : TaskRecordOf γ where
  taskID := columns.taskID
  tenantID := columns.tenantID
  status := .pending
  runtimeID := none
  runtimeEndpoint := none
  taskDefinition := columns.taskDefinition
  lastCheckpoint := none
  executionEnvelope := none
  executionReceipt := none
  idempotencyKey := columns.idempotencyKey
  failureReason := none
  failureDetails := none
  deadlineAt := columns.deadlineAt
  dispatchedAt := none
  completedAt := none
  canceledAt := none
  attemptCount := 0
  hasIrreversibleEffect := false

inductive TaskUpdate where
  | markDispatched (taskID : Uuid) (runtimeID runtimeEndpoint : Text)
  | saveCheckpoint (taskID : Uuid) (cpBytes : Text)
  | markCompleted (taskID : Uuid)
  | markFailed (taskID : Uuid) (reason : Text) (details : Option TaskFailureDetails)
  | markCanceled (taskID : Uuid)
  | markRecovering (runtimeID : Text)
  | markApprovalRequired (taskID : Uuid) (reason : Text)
  | markApprovedDispatched (taskID : Uuid) (tenantID runtimeID runtimeEndpoint : Text)
  | markApprovalRejected (taskID : Uuid) (tenantID reason : Text) (details : Option TaskFailureDetails)
  | reapExpiredDeadline (taskID : Uuid) (details : Option TaskFailureDetails)
  | saveExecutionArtifacts (taskID : Uuid) (executionEnvelope executionReceipt : Option Text)
  | flagIrreversible (taskID : Uuid)
  | countAttempt (taskID : Uuid)

namespace TaskUpdate

def admits : TaskUpdate → TaskRow → Bool
  | markDispatched id _ _, r => r.taskID == id && (r.status == .pending || r.status == .recovering)
  | saveCheckpoint id _, r | markCompleted id, r | markFailed id _ _, r =>
    r.taskID == id && (r.status == .dispatched || r.status == .checkpointed || r.status == .recovering)
  | markCanceled id, r | reapExpiredDeadline id _, r =>
    r.taskID == id &&
      (r.status == .pending || r.status == .dispatched || r.status == .checkpointed || r.status == .recovering)
  | markRecovering runtimeID, r =>
    r.runtimeID == some runtimeID && (r.status == .dispatched || r.status == .checkpointed)
  | markApprovalRequired id _, r => r.taskID == id && (r.status == .pending || r.status == .recovering)
  | markApprovedDispatched id tenantID _ _, r | markApprovalRejected id tenantID _ _, r =>
    r.taskID == id && r.tenantID == tenantID && r.status == .approvalRequired
  | saveExecutionArtifacts id _ _, r | flagIrreversible id, r | countAttempt id, r => r.taskID == id

def set (now : Nat) : TaskUpdate → TaskRow → TaskRow
  | markDispatched _ runtimeID endpoint, r =>
    { r with
      status := .dispatched
      runtimeID := some runtimeID
      runtimeEndpoint := some endpoint
      dispatchedAt := some now }
  | saveCheckpoint _ cpBytes, r => { r with status := .checkpointed, lastCheckpoint := some cpBytes }
  | markCompleted _, r => { r with status := .completed, completedAt := some now }
  | markFailed _ reason details, r | markApprovalRejected _ _ reason details, r =>
    { r with status := .failed, failureReason := some reason, failureDetails := details }
  | markCanceled _, r => { r with status := .canceled, canceledAt := some now }
  | markRecovering _, r => { r with status := .recovering }
  | markApprovalRequired _ reason, r => { r with status := .approvalRequired, failureReason := some reason }
  | markApprovedDispatched _ _ runtimeID endpoint, r =>
    { r with
      status := .dispatched
      runtimeID := some runtimeID
      runtimeEndpoint := some endpoint
      dispatchedAt := some now
      failureReason := none }
  | reapExpiredDeadline _ details, r =>
    { r with status := .failed, failureReason := some "deadline_exceeded", failureDetails := details }
  | saveExecutionArtifacts _ envelope receipt, r =>
    { r with
      executionEnvelope := envelope.or r.executionEnvelope
      executionReceipt := receipt.or r.executionReceipt }
  | flagIrreversible _, r => { r with hasIrreversibleEffect := true }
  | countAttempt _, r => { r with attemptCount := r.attemptCount + 1 }

def encode (jsonb : Text → Option Text) : TaskUpdate → Option TaskUpdate
  | saveCheckpoint id cpBytes => (jsonb cpBytes).map (saveCheckpoint id)
  | saveExecutionArtifacts id envelope receipt => do
    let envelope ← envelope.mapM jsonb
    let receipt ← receipt.mapM jsonb
    return saveExecutionArtifacts id envelope receipt
  | u => some u

@[simp] theorem taskID_set (now : Nat) (u : TaskUpdate) (r : TaskRow) : (u.set now r).taskID = r.taskID := by
  cases u <;> rfl

end TaskUpdate

inductive TaskQuery where
  | byID (taskID : Uuid) (tenantID : Text)
  | byIdempotencyKey (tenantID idempotencyKey : Text)
  | byTaskID (taskID : Uuid)

def TaskQuery.admits : TaskQuery → TaskRow → Bool
  | byID id tenantID, r => r.taskID == id && r.tenantID == tenantID
  | byIdempotencyKey tenantID key, r => r.tenantID == tenantID && r.idempotencyKey == key
  | byTaskID id, r => r.taskID == id

inductive AuxTable where
  | boundActionRuns
  | reconciliationEvents
  | executionInputRefs (n : Nat)
  | executionAudit
  | policyDecisions
  | executionBoundaries
  | approvalRequests
  | dispatchQueue
  | permissionEnvelopes
  | runtimeInstances
  | recoveryEvents
  | handoffEvents
  | deadLetters
  | executionLineage
  | latestPolicyDecision
deriving DecidableEq

/-- What a call does: statements, and questions to anything outside the tables. Those of a transaction are
named for it; the others run outside of any. -/
inductive Op (A : Interface) where
  | update (u : TaskUpdate)
  | insertTask (columns : TaskColumns)
  | select (q : TaskQuery)
  | selectWal (taskID : Uuid)
  | write (table : AuxTable)
  | begin
  | txUpdate (u : TaskUpdate)
  | txInsertTask (columns : TaskColumns)
  | txInsertWal (taskID : Uuid) (stepIndex : Nat) (cpBytes : Text)
  | txLockCheckpoint (taskID : Uuid)
  | txLockExpired
  | txWrite (table : AuxTable)
  | commit
  | rollback
  | ask (q : A.Op)

/-- The result of a statement is none if it reported an error. -/
def Op.Res {A : Interface} : Op A → Type
  | begin | commit | write _ | txWrite _ => Bool
  | rollback => Unit
  | update _ | txUpdate _ => Option (List TaskRow)
  | insertTask _ | txInsertTask _ => Option Bool
  | select _ => Option (List TaskRow)
  | selectWal _ => Option (List Text)
  | txInsertWal _ _ _ => Option Unit
  | txLockCheckpoint _ => Option (Option (Option Text))
  | txLockExpired => Option (List Uuid)
  | ask q => A.Res q

def sql (A : Interface) : Interface := ⟨Op A, Op.Res⟩

inductive Outcome where
  | done
  | failed
  | lost
deriving DecidableEq

structure Choice (A : Interface) where
  outcome : Outcome
  now : Nat
  answer : (q : A.Op) → A.Res q

namespace Db

/-- Runs a statement outside of transactions. In `run`, none is a statement that has to wait and `some none`
one that is refused. -/
def autocommit {ρ : Type} (outcome : Outcome) (db : Db) (run : Option (Option (ρ × Db))) :
    Option (Option ρ × Db) :=
  match outcome with
  | .failed => some (none, db)
  | .done => run.map fun res => res.elim (none, db) fun (a, db') => (some a, db')
  | .lost => run.map fun res => res.elim (none, db) fun (_, db') => (none, db')

def statement {ρ : Type} (outcome : Outcome) (i : Nat) (db : Db) (run : Option (Option (ρ × Db))) :
    Option (Option ρ × Db) :=
  if (db.tx i).all RowStore.Tx.failed then some (none, db)
  else match outcome with
    | .done => run.map fun res => res.elim (none, db.abort i) fun (a, db') => (some a, db')
    | _ => some (none, db.abort i)

variable (jsonb : Text → Option Text)

def update (now : Nat) (u : TaskUpdate) (db : Db) :
    Option (Option (List TaskRow × Db)) :=
  match u.encode jsonb with
  | none => some none
  | some u =>
    let matched := db.rows.rows.filter u.admits
    if matched.all fun r => (db.lock r.taskID).isNone then
      some (some (matched.map (u.set now), db.store (matched.map (u.set now))))
    else none

def txUpdate (now i : Nat) (u : TaskUpdate) (db : Db) :
    Option (Option (List TaskRow × Db)) :=
  match u.encode jsonb with
  | none => some none
  | some u =>
    let matched := (db.view i).rows.filter u.admits
    if matched.all fun r => db.free i r.taskID then
      some (some (matched.map (u.set now), db.write i (matched.map (u.set now))))
    else none

/-- The row to insert, or whether the insertion is refused, does nothing or has to wait. A conflict on tenant
and idempotency key is not an error, one on the primary key is. -/
inductive Insertion where
  | refused
  | conflict
  | waits
  | row (r : TaskRow)

def insertion (view : Table taskSchema.key) (rowFree indexFree : Bool)
    (columns : TaskColumns) : Insertion :=
  match jsonb columns.taskDefinition with
  | none => .refused
  | some taskDefinition =>
    if !indexFree then .waits
    else if view.rows.any fun r =>
        r.tenantID == columns.tenantID && r.idempotencyKey == columns.idempotencyKey then .conflict
    else if (view.get? columns.taskID).isSome then .refused
    else if rowFree then .row { columns with taskDefinition := taskDefinition : TaskColumns }.row
    else .waits

def insertTask (columns : TaskColumns) (db : Db) : Option (Option (Bool × Db)) :=
  match insertion jsonb db.rows (db.lock columns.taskID).isNone
    (db.indexLock (columns.tenantID, columns.idempotencyKey)).isNone columns with
  | .refused => some none
  | .conflict => some (some (false, db))
  | .waits => none
  | .row r => some (some (true, db.store [r]))

def txInsertTask (i : Nat) (columns : TaskColumns) (db : Db) :
    Option (Option (Bool × Db)) :=
  match insertion jsonb (db.view i) (db.free i columns.taskID)
    (db.indexFree i (columns.tenantID, columns.idempotencyKey)) columns with
  | .refused => some none
  | .conflict => some (some (false, db))
  | .waits => none
  | .row r => some (some (true, db.insert i r))

/-- The column `step_index` has 32 bits with a sign. -/
def txInsertWal (i : Nat) (taskID : Uuid) (stepIndex : Nat) (cpBytes : Text)
    (db : Db) : Option (Option (Unit × Db)) :=
  match jsonb cpBytes with
  | none => some none
  | some walEntries =>
    if 2 ^ 31 ≤ stepIndex || ((db.view i).get? taskID).isNone then some none
    else if db.free i taskID then some (some ((), db.append i ⟨taskID, stepIndex, walEntries, i⟩))
    else none

def txLockCheckpoint (i : Nat) (taskID : Uuid) (db : Db) : Option (Option (Option (Option Text) × Db)) :=
  match (db.view i).get? taskID with
  | none => some (some (none, db))
  | some r => if db.free i taskID then some (some (some r.lastCheckpoint, db.acquire i [taskID])) else none

def txLockExpired (now i : Nat) (db : Db) : Option (Option (List Uuid × Db)) :=
  let expired := (db.view i).rows.filter fun r =>
    taskAllowsCancellation r.status && r.deadlineAt.any (· < now) && db.free i r.taskID
  let chosen := (expired.insertionSort fun r r' => r.deadlineAt.getD 0 ≤ r'.deadlineAt.getD 0).take 100
  let ids := chosen.map TaskRecordOf.taskID
  some (some (ids, db.acquire i ids))

def walOf (db : Db) (taskID : Uuid) : List Text :=
  let rows := db.entries.filter fun w => w.taskID == taskID
  (rows.insertionSort fun w w' => w.stepIndex ≤ w'.stepIndex).map WalRow.walEntries

def exec {A : Interface} (c : Choice A) (i : Nat) :
    (o : Op A) → Db → Option (o.Res × Db)
  | .update u, db => autocommit c.outcome db (db.update jsonb c.now u)
  | .insertTask columns, db => autocommit c.outcome db (db.insertTask jsonb columns)
  | .select q, db => autocommit c.outcome db (some (some (db.rows.rows.filter q.admits, db)))
  | .selectWal taskID, db => autocommit c.outcome db (some (some (db.walOf taskID, db)))
  | .write _, db => some (c.outcome == .done, db)
  | .begin, db =>
    if (db.tx i).isSome then none
    else match c.outcome with
      | .done => some (true, db.begin i)
      | _ => some (false, db)
  | .txUpdate u, db => statement c.outcome i db (db.txUpdate jsonb c.now i u)
  | .txInsertTask columns, db => statement c.outcome i db (db.txInsertTask jsonb i columns)
  | .txInsertWal taskID stepIndex cpBytes, db =>
    statement c.outcome i db (db.txInsertWal jsonb i taskID stepIndex cpBytes)
  | .txLockCheckpoint taskID, db => statement c.outcome i db (db.txLockCheckpoint i taskID)
  | .txLockExpired, db => statement c.outcome i db (db.txLockExpired c.now i)
  | .txWrite _, db => (statement c.outcome i db (some (some ((), db)))).map fun (r, db') => (r.isSome, db')
  | .commit, db =>
    if (db.tx i).all RowStore.Tx.failed then some (false, db.release i)
    else match c.outcome with
      | .done => some (true, db.commit i)
      | .failed => some (false, db.release i)
      | .lost => some (false, db.commit i)
  | .rollback, db => some ((), db.release i)
  | .ask q, db => some (c.answer q, db)

end Db

end Overture
