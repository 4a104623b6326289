import Mathlib.Data.List.Sort
import Overture.Coordinator.Record
import Overture.Lib.Table

/-!
# The deadline reaper

One pass reads the tasks whose deadline has passed, locks them, and fails them one by one in the same transaction,
while the rows of the read are still open. A statement that fails aborts the transaction, and an aborted
transaction commits nothing.
-/

namespace Overture.DeadlineReaper

open List

abbrev TaskTable := Table (TaskRecordOf.taskID (γ := Text))

structure Database where
  now : Nat
  tasks : TaskTable
  locked : List Uuid

def reapable : TaskStatus → Bool
  | .pending | .dispatched | .checkpointed | .recovering => true
  | _ => false

def deadline (t : TaskRow) : Nat := t.deadlineAt.getD 0

def Database.due (db : Database) (t : TaskRow) : Bool :=
  reapable t.status && t.deadlineAt.any (fun d => decide (d < db.now)) && !db.locked.contains t.taskID

def selectExpired (db : Database) : List TaskRow :=
  ((db.tasks.rows.filter db.due).insertionSort fun a b => deadline a ≤ deadline b).take 100

def taskRecordsColumns : List String :=
  ["task_id", "tenant_id", "status", "runtime_id", "runtime_endpoint", "task_definition", "last_checkpoint",
    "idempotency_key", "failure_reason", "deadline_at", "dispatched_at", "completed_at", "created_at",
    "execution_envelope", "execution_receipt", "proof_execution_id", "proof_expected_hash", "proof_stored_hash",
    "proof_signature", "proof_status", "proof_checked_at", "canceled_at", "failure_details", "proof_verified",
    "proof_hash_valid", "proof_signature_matches", "proof_runtime_key_found", "proof_chain_link_valid",
    "proof_verification_reason", "proof_verified_at", "latest_policy_decision_id", "recovery_policy",
    "checkpoint_portability", "executed_target", "fallback_reason", "registered_agent_id", "registered_agent_name",
    "attempt_count", "next_retry_at", "has_irreversible_effect"]

def updateColumns : List String := ["status", "failure_reason", "failure_details", "updated_at", "task_id"]

structure Engine where
  columns : List String
  sendsWhileOpen : Bool

def Engine.complete (e : Engine) : Bool := updateColumns.all e.columns.contains && e.sendsWhileOpen

structure Faults where
  beginFails : Bool := false
  queryFails : Bool := false
  updateFails : Uuid → Bool := fun _ => false
  commitFails : Bool := false

structure Tx where
  tasks : TaskTable
  aborted : Bool

def failed (t : TaskRow) : TaskRow :=
  { t with
    status := .failed
    failureReason := some "deadline_exceeded"
    failureDetails := some (overtureTaskFailureDetails "reaper" "deadline_exceeded"
      "task deadline exceeded before completion") }

def failTask (taskID : Uuid) (t : TaskRow) : TaskRow :=
  if t.taskID = taskID ∧ reapable t.status = true then failed t else t

theorem failTask_taskID (taskID : Uuid) (t : TaskRow) : (failTask taskID t).taskID = t.taskID := by
  unfold failTask
  split_ifs <;> rfl

def Tx.update (e : Engine) (faults : Faults) (tx : Tx) (taskID : Uuid) : Tx :=
  if tx.aborted then tx
  else if faults.updateFails taskID || !e.complete then { tx with aborted := true }
  else { tx with tasks := tx.tasks.alter (failTask taskID) (failTask_taskID taskID) }

def reapExpiredDeadlines (e : Engine) (faults : Faults) (db : Database) : TaskTable :=
  if faults.beginFails || faults.queryFails then db.tasks
  else
    let tx := ((selectExpired db).map TaskRecordOf.taskID).foldl (Tx.update e faults) ⟨db.tasks, false⟩
    if tx.aborted || faults.commitFails then db.tasks else tx.tasks

/-- The tasks of `selected` are due, at most a hundred, and none that is left is due earlier. -/
structure Earliest (db : Database) (selected : List TaskRow) : Prop where
  nodup : selected.Nodup
  due : ∀ t ∈ selected, t ∈ db.tasks.rows ∧ db.due t = true
  length : selected.length = min 100 (db.tasks.rows.countP db.due)
  earliest : ∀ t ∈ selected, ∀ t' ∈ db.tasks.rows, db.due t' = true → t' ∉ selected → deadline t ≤ deadline t'

/-- The earliest due tasks are failed except those whose own statement fails, and nothing else is changed. -/
def Reaps (e : Engine) (db : Database) : Prop :=
  ∀ faults : Faults, faults.beginFails = false → faults.queryFails = false → faults.commitFails = false →
    ∃ selected, Earliest db selected ∧ ∀ taskID, (reapExpiredDeadlines e faults db).get? taskID =
      (db.tasks.get? taskID).map fun t =>
        if taskID ∈ selected.map TaskRecordOf.taskID ∧ faults.updateFails taskID = false then failed t else t

variable {e : Engine} {faults : Faults} {db : Database}

theorem foldl_aborted (ids : List Uuid) {tx : Tx} (h : tx.aborted = true) :
    ids.foldl (Tx.update e faults) tx = tx := by
  induction ids with
  | nil => rfl
  | cons id ids ih => rw [foldl_cons, Tx.update, if_pos h, ih]

theorem aborted_of_fault {ids : List Uuid} {id : Uuid} (hid : id ∈ ids)
    (hfault : (faults.updateFails id || !e.complete) = true) (tx : Tx) :
    (ids.foldl (Tx.update e faults) tx).aborted = true := by
  induction ids generalizing tx with
  | nil => cases hid
  | cons first rest ih =>
    rw [foldl_cons]
    rcases mem_cons.mp hid with rfl | hrest
    · have hstep : (Tx.update e faults tx id).aborted = true := by
        unfold Tx.update
        split_ifs with haborted
        · exact haborted
        · rfl
      rw [foldl_aborted rest hstep]
      exact hstep
    · exact ih hrest _

theorem foldl_complete (hcomplete : e.complete = true) {ids : List Uuid}
    (hfaults : ∀ id ∈ ids, faults.updateFails id = false) (tx : Tx) (htx : tx.aborted = false) :
    (ids.foldl (Tx.update e faults) tx).aborted = false ∧ ∀ taskID,
      (ids.foldl (Tx.update e faults) tx).tasks.get? taskID =
        (tx.tasks.get? taskID).map fun t => ids.foldl (fun t id => failTask id t) t := by
  induction ids generalizing tx with
  | nil => simp [htx]
  | cons first rest ih =>
    have hstep : Tx.update e faults tx first =
        ⟨tx.tasks.alter (failTask first) (failTask_taskID first), false⟩ := by
      simp [Tx.update, htx, hcomplete, hfaults first]
    rw [foldl_cons, hstep]
    obtain ⟨haborted, hget⟩ := ih (fun id hid => hfaults id (mem_cons_of_mem _ hid))
      ⟨tx.tasks.alter (failTask first) (failTask_taskID first), false⟩ rfl
    refine ⟨haborted, fun taskID => ?_⟩
    rw [hget, Table.get?_alter, Option.map_map]
    rfl

theorem nodup_rows (tasks : TaskTable) : tasks.rows.Nodup := tasks.nodup.of_map _

theorem due_of_mem_select {t : TaskRow} (h : t ∈ selectExpired db) : t ∈ db.tasks.rows ∧ db.due t = true := by
  have hmem := mem_of_mem_take h
  rwa [mem_insertionSort, mem_filter] at hmem

theorem earliest_selectExpired (db : Database) : Earliest db (selectExpired db) where
  nodup := by
    apply List.Nodup.sublist (take_sublist _ _)
    rw [(perm_insertionSort _ _).nodup_iff]
    exact (nodup_rows db.tasks).filter _
  due t ht := due_of_mem_select ht
  length := by rw [selectExpired, length_take, length_insertionSort, countP_eq_length_filter]
  earliest t ht t' ht' hdue hleft := by
    -- a due task that is not among the first hundred stands after them in the sorted list
    have hsorted := pairwise_insertionSort (fun a b : TaskRow => deadline a ≤ deadline b)
      (db.tasks.rows.filter db.due)
    rw [← take_append_drop 100 (insertionSort _ _), pairwise_append] at hsorted
    apply hsorted.2.2 t ht t'
    have hmem : t' ∈ (db.tasks.rows.filter db.due).insertionSort fun a b => deadline a ≤ deadline b :=
      mem_insertionSort _ |>.mpr (mem_filter.mpr ⟨ht', hdue⟩)
    rw [← take_append_drop 100 (insertionSort _ _), mem_append] at hmem
    exact hmem.resolve_left hleft

theorem due_failed (t : TaskRow) : db.due (failed t) = false := rfl

theorem reap_eq_of_fault (hbegin : faults.beginFails = false) (hquery : faults.queryFails = false) {t : TaskRow}
    (ht : t ∈ selectExpired db) (hfault : (faults.updateFails t.taskID || !e.complete) = true) :
    reapExpiredDeadlines e faults db = db.tasks := by
  have haborted := aborted_of_fault (mem_map_of_mem (f := TaskRecordOf.taskID) ht) hfault ⟨db.tasks, false⟩
  simp [reapExpiredDeadlines, hbegin, hquery, haborted]

theorem not_reaped {selected : List TaskRow} (hearliest : Earliest db selected) {t : TaskRow} (ht : t ∈ selected)
    (hfault : faults.updateFails t.taskID = false)
    (h : ∀ taskID, db.tasks.get? taskID = (db.tasks.get? taskID).map fun t =>
      if taskID ∈ selected.map TaskRecordOf.taskID ∧ faults.updateFails taskID = false then failed t else t) : False := by
  obtain ⟨hrow, hdue⟩ := hearliest.due t ht
  have hget := h t.taskID
  rw [Table.get?_of_mem hrow, Option.map_some, if_pos ⟨mem_map_of_mem ht, hfault⟩, Option.some_inj] at hget
  rw [hget, due_failed] at hdue
  cases hdue

/-- A pass does what it is for exactly if no task is due, or a single one is and the statement can be executed at
all. -/
theorem reaps_iff (e : Engine) (db : Database) :
    Reaps e db ↔ db.tasks.rows.countP db.due = 0 ∨ (e.complete = true ∧ db.tasks.rows.countP db.due = 1) := by
  have hlength := (earliest_selectExpired db).length
  constructor
  · intro h
    by_contra hnot
    rw [not_or, not_and] at hnot
    obtain ⟨first, hfirst⟩ : ∃ t, t ∈ selectExpired db := by
      apply exists_mem_of_length_pos
      omega
    cases hcomplete : e.complete with
    | false =>
      obtain ⟨selected, hearliest, hget⟩ := h {} rfl rfl rfl
      rw [reap_eq_of_fault rfl rfl hfirst (by simp [hcomplete])] at hget
      obtain ⟨t, ht⟩ : ∃ t, t ∈ selected := by
        apply exists_mem_of_length_pos
        rw [hearliest.length]
        omega
      exact not_reaped hearliest ht rfl hget
    | true =>
      have hmany := hnot.2 hcomplete
      -- the statement of the first task fails, and with it the transaction
      obtain ⟨selected, hearliest, hget⟩ := h { updateFails := fun id => id == first.taskID } rfl rfl rfl
      rw [reap_eq_of_fault rfl rfl hfirst (by simp)] at hget
      obtain ⟨t, ht, hne⟩ : ∃ t ∈ selected, t ≠ first := by
        by_contra hall
        have hsub : selected ⊆ [first] := by
          intro t ht
          by_contra hne
          exact hall ⟨t, ht, by simpa using hne⟩
        have hle := (hearliest.nodup.subperm hsub).length_le
        rw [hearliest.length, length_singleton] at hle
        omega
      have hid : t.taskID ≠ first.taskID := fun heq =>
        hne (inj_on_of_nodup_map db.tasks.nodup (hearliest.due t ht).1 (due_of_mem_select hfirst).1 heq)
      exact not_reaped hearliest ht (by simpa using hid) hget
  rintro (hnone | ⟨hcomplete, hone⟩) faults hbegin hquery hcommit
  · have hempty : selectExpired db = [] := by
      apply eq_nil_of_length_eq_zero
      omega
    refine ⟨[], hempty ▸ earliest_selectExpired db, fun taskID => ?_⟩
    simp [reapExpiredDeadlines, hempty, hbegin, hquery, hcommit]
  refine ⟨selectExpired db, earliest_selectExpired db, fun taskID => ?_⟩
  obtain ⟨t, hselect⟩ := length_eq_one_iff.mp (show (selectExpired db).length = 1 by omega)
  have ht : t ∈ selectExpired db := hselect ▸ mem_singleton_self t
  cases hfault : faults.updateFails t.taskID with
  | true =>
    rw [reap_eq_of_fault hbegin hquery ht (by simp [hfault]), hselect]
    cases hget : db.tasks.get? taskID with
    | none => rfl
    | some row =>
      rw [Option.map_some, if_neg]
      rintro ⟨hmem, hno⟩
      rw [map_singleton, mem_singleton] at hmem
      rw [hmem, hfault] at hno
      cases hno
  | false =>
    have hfaults : ∀ id ∈ [t.taskID], faults.updateFails id = false := by simpa using hfault
    obtain ⟨haborted, hget⟩ := foldl_complete hcomplete hfaults ⟨db.tasks, false⟩ rfl
    have hreap : reapExpiredDeadlines e faults db =
        ([t.taskID].foldl (Tx.update e faults) ⟨db.tasks, false⟩).tasks := by
      simp only [reapExpiredDeadlines, hbegin, hquery, hcommit, hselect, map_singleton, haborted, Bool.or_self,
        Bool.false_eq_true, if_false]
    rw [hreap, hget, hselect]
    cases hrow : db.tasks.get? taskID with
    | none => rfl
    | some row =>
      have hid : row.taskID = taskID := Table.key_of_get? hrow
      simp only [Option.map_some, foldl_cons, foldl_nil, failTask, map_singleton, mem_singleton]
      by_cases hsame : taskID = t.taskID
      · obtain ⟨hmem, hdue⟩ := due_of_mem_select ht
        have hrow' : row = t := inj_on_of_nodup_map db.tasks.nodup (Table.mem_of_get? hrow) hmem (hid.trans hsame)
        have hreapable : reapable t.status = true := by
          rw [Database.due, Bool.and_eq_true, Bool.and_eq_true] at hdue
          exact hdue.1.1
        rw [hrow', if_pos ⟨rfl, hreapable⟩, if_pos ⟨hsame, hsame ▸ hfault⟩]
      · rw [if_neg (by rw [hid]; tauto), if_neg (by tauto)]

theorem migrated_incomplete (sendsWhileOpen : Bool) : Engine.complete ⟨taskRecordsColumns, sendsWhileOpen⟩ = false := by
  have hmissing : updateColumns.all taskRecordsColumns.contains = false := by decide
  rw [Engine.complete, hmissing, Bool.false_and]

/-- On the migrated schema a pass does what it is for exactly if there is nothing to do. -/
theorem reaps_migrated_iff (sendsWhileOpen : Bool) (db : Database) :
    Reaps ⟨taskRecordsColumns, sendsWhileOpen⟩ db ↔ ∀ t ∈ db.tasks.rows, db.due t = false := by
  rw [reaps_iff, migrated_incomplete, countP_eq_zero]
  simp

def expiredTask : TaskRow where
  taskID := 1
  tenantID := "acme"
  status := .pending
  runtimeID := none
  runtimeEndpoint := none
  taskDefinition := []
  lastCheckpoint := none
  executionEnvelope := none
  executionReceipt := none
  idempotencyKey := []
  failureReason := none
  failureDetails := none
  deadlineAt := some 3
  dispatchedAt := none
  completedAt := none
  canceledAt := none
  attemptCount := 0
  hasIrreversibleEffect := false

def expiredDatabase : Database := ⟨5, Table.empty.put expiredTask, []⟩

/-- The task stays pending, even for a driver that sends statements while rows are open. -/
theorem expired_task_stays : ¬ Reaps ⟨taskRecordsColumns, true⟩ expiredDatabase ∧
    (reapExpiredDeadlines ⟨taskRecordsColumns, true⟩ {} expiredDatabase).rows.map TaskRecordOf.status = [.pending] := by
  constructor
  · rw [reaps_iff]
    decide
  · decide +kernel

end Overture.DeadlineReaper
