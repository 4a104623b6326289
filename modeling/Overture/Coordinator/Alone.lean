import Overture.Coordinator.DatabaseSteps
import Overture.Coordinator.Submit

/-!
# A call that runs alone

What the parts of a call do to the tables when nothing runs beside it, and the creation of a
task: the row is stored by an autocommitted insertion, or by the commit of a transaction
that also holds the encrypted inputs and the bound action.
-/

namespace Overture

open Interleave Option Db RowStore

abbrev Environment := Op asks → Choice asks

def alone (jsonb : Text → Option Text) (env : Environment) (i : Nat) {α : Type} (p : Coord α) (db : Db) :
    Option (α × Db) :=
  p.solo (fun o => exec jsonb (env o) i o) db

def Environment.answer (env : Environment) (q : Ask) : q.Answer := (env (.ask q)).answer q

def Environment.saves (env : Environment) (recovery : Bool) (d : ActionPolicyDecision) : Bool :=
  env.answer (.savePolicyDecision recovery d)

def Environment.outcome (env : Environment) (o : Op asks) : Outcome := (env o).outcome

section Alone

variable {jsonb : Text → Option Text} {env : Environment} {i : Nat} {α β : Type}

theorem alone_bind (p : Coord α) (f : α → Coord β) (db : Db) :
    alone jsonb env i (p >>= f) db = (alone jsonb env i p db).bind fun res => alone jsonb env i (f res.1) res.2 :=
  Prog.solo_bind p f db

theorem alone_bind_iff {p : Coord α} {f : α → Coord β} {db db' : Db} {b : β} :
    alone jsonb env i (p >>= f) db = some (b, db') ↔
      ∃ a db₁, alone jsonb env i p db = some (a, db₁) ∧ alone jsonb env i (f a) db₁ = some (b, db') := by
  rw [alone_bind, bind_eq_some_iff, Prod.exists]

theorem alone_pure (a : α) (db : Db) : alone jsonb env i (pure a) db = some (a, db) := rfl

theorem alone_run (o : Op asks) (db : Db) : alone jsonb env i (run o) db = exec jsonb (env o) i o db := by
  change ((exec jsonb (env o) i o db).bind fun res => some (res.1, res.2)) = _
  simp

@[simp] theorem alone_ask (q : Ask) (db : Db) : alone jsonb env i (ask q) db = some (env.answer q, db) := rfl

@[simp] theorem alone_savePolicyDecision (recovery : Bool) (d : ActionPolicyDecision) (db : Db) :
    alone jsonb env i (savePolicyDecision recovery d) db = some (env.saves recovery d, db) := rfl

@[simp] theorem alone_writeAux (table : AuxTable) (db : Db) :
    alone jsonb env i (writeAux table) db = some (env.outcome (.write table) == .done, db) := rfl

@[simp] theorem alone_spawn (l : CoordCall) (db : Db) : alone jsonb env i (Prog.spawn l) db = some ((), db) := rfl

def Db.statusOf (db : Db) (taskID : Uuid) : Option TaskStatus := (db.rows.get? taskID).map TaskRecordOf.status

theorem alone_update {u : TaskUpdate} (hu : u.encode jsonb = some u) {db db' : Db} {res : Option (List TaskRow)}
    (h : alone jsonb env i (run (.update u)) db = some (res, db')) :
    (env.outcome (.update u) = .failed ∧ res = none ∧ db' = db) ∨
    (env.outcome (.update u) ≠ .failed ∧
      (∀ k, db'.rows.get? k =
        (db.rows.get? k).map fun r => if u.admits r then u.set (env (.update u)).now r else r) ∧
      (env.outcome (.update u) = .done →
        res = some ((db.rows.rows.filter u.admits).map (u.set (env (.update u)).now))) ∧
      (env.outcome (.update u) = .lost → res = none)) := by
  have hexec : exec jsonb (env (.update u)) i (.update u) db = some (res, db') := by rwa [alone_run] at h
  have hrun : ∀ rows w, db.update jsonb (env (.update u)).now u = some (some (rows, w)) →
      rows = (db.rows.rows.filter u.admits).map (u.set (env (.update u)).now) ∧
      ∀ k, w.rows.get? k =
        (db.rows.get? k).map fun r => if u.admits r then u.set (env (.update u)).now r else r := by
    intro rows w hw
    obtain ⟨u', hu', -, hrows, rfl⟩ := update_cases hw
    cases hu.symm.trans hu'
    exact ⟨hrows, fun k => get?_store_update u _ db k⟩
  have hsome : ∀ ures, db.update jsonb (env (.update u)).now u = some ures → ∃ rows w, ures = some (rows, w) := by
    intro ures hures
    simp only [update, hu] at hures
    split at hures
    · exact ⟨_, _, (some.inj hures).symm⟩
    · simp at hures
  rw [exec] at hexec
  unfold Environment.outcome
  cases hout : (env (.update u)).outcome with
  | failed =>
    rw [hout] at hexec
    cases hexec
    exact .inl ⟨rfl, rfl, rfl⟩
  | done | lost =>
    rw [hout] at hexec
    obtain ⟨ures, hures, heq⟩ := map_eq_some_iff.mp hexec
    obtain ⟨rows, w, rfl⟩ := hsome ures hures
    cases heq
    obtain ⟨rfl, hget⟩ := hrun rows db' hures
    exact .inr ⟨by simp, hget, by simp, by simp⟩

theorem alone_transition {u : TaskUpdate} {db db' : Db} {res : Result Unit}
    (h : alone jsonb env i (transition u) db = some (res, db')) :
    ∃ rows, alone jsonb env i (run (.update u)) db = some (rows, db') ∧ res = taskTransitionResult rows := by
  rw [transition, alone_bind_iff] at h
  obtain ⟨rows, db₁, hrun, hret⟩ := h
  cases hret
  exact ⟨rows, hrun, rfl⟩

variable {db db' : Db}

variable {ok : Bool} {task : NewTask} {res : Result Bool}

theorem alone_txWriteAux {table : AuxTable}
    (h : alone jsonb env i (txWriteAux table) db = some (ok, db')) :
    db'.rows = db.rows ∧ (ok = true → db' = db) := by
  have hexec := (alone_run (.txWrite table) db).symm.trans h
  obtain ⟨⟨r, w⟩, hst, heq⟩ := map_eq_some_iff.mp hexec
  cases heq
  rcases statement_cases hst with ⟨rfl, rfl | rfl⟩ | ⟨b, hw, rfl⟩
  · exact ⟨rfl, fun _ => rfl⟩
  · exact ⟨rfl, fun hok => by simp at hok⟩
  cases hw
  exact ⟨rfl, fun _ => rfl⟩

theorem alone_insertExecutionInputRefs {n : Nat}
    (h : alone jsonb env i (insertExecutionInputRefs n) db = some (ok, db')) :
    db'.rows = db.rows ∧ (ok = true → db' = db) := by
  induction n generalizing db with
  | zero =>
    rw [insertExecutionInputRefs, alone_pure] at h
    cases h
    exact ⟨rfl, fun _ => rfl⟩
  | succ n ih =>
    rw [insertExecutionInputRefs, alone_bind_iff] at h
    obtain ⟨ok₁, db₁, hfirst, h⟩ := h
    obtain ⟨hrows₁, hsame₁⟩ := alone_txWriteAux hfirst
    cases ok₁ with
    | false =>
      rw [if_neg (by simp), alone_pure] at h
      cases h
      exact ⟨hrows₁, fun hok => by simp at hok⟩
    | true =>
      obtain rfl := hsame₁ rfl
      rw [if_pos rfl, alone_bind_iff] at h
      obtain ⟨ok₂, db₂, hsecond, h⟩ := h
      obtain ⟨hrows₂, hsame₂⟩ := alone_txWriteAux hsecond
      cases ok₂ with
      | false =>
        rw [if_neg (by simp), alone_pure] at h
        cases h
        exact ⟨hrows₂, fun hok => by simp at hok⟩
      | true =>
        obtain rfl := hsame₂ rfl
        exact ih h

theorem alone_insertBoundActionRun {res : Result Unit}
    (h : alone jsonb env i (insertBoundActionRun task) db = some (res, db')) :
    db'.rows = db.rows ∧ (res = .ok () → db' = db) := by
  unfold insertBoundActionRun at h
  split at h
  · rw [alone_pure] at h
    cases h
    exact ⟨rfl, fun _ => rfl⟩
  split at h
  · rw [alone_bind_iff] at h
    obtain ⟨ok, db₁, hwrite, h⟩ := h
    obtain ⟨hrows, hsame⟩ := alone_txWriteAux hwrite
    rw [alone_pure] at h
    cases h
    exact ⟨hrows, fun hok => hsame (by cases ok <;> simp_all)⟩
  · rw [alone_pure] at h
    cases h
    exact ⟨rfl, fun _ => rfl⟩

theorem alone_rollbackWith {α : Type} {e : StoreError} {res : Result α}
    (h : alone jsonb env i (rollbackWith e) db = some (res, db')) : res = .error e ∧ db'.rows = db.rows := by
  cases h
  exact ⟨rfl, rfl⟩

def NewTask.stored (task : NewTask) : Op asks :=
  if task.inputRefs = 0 ∧ task.boundAction = none then
    .insertTask (task.columns ((marshalRaw task.taskDefinition).getD []))
  else .commit

/-- No row is stored, or a new one is that is pending; then the caller is told so if the storing statement
reports no error. -/
def Created (env : Environment) (taskID : Uuid) (stored : Op asks) (res : Result Bool) (db db' : Db) : Prop :=
  (res ≠ .ok true ∧ ∀ k, db'.rows.get? k = db.rows.get? k) ∨
  (db.rows.get? taskID = none ∧ db'.statusOf taskID = some .pending ∧ res ≠ .ok false ∧
    (res = .ok true ↔ env.outcome stored = .done))

theorem Created.unstored {stored : Op asks} {taskID : Uuid}
    (hrows : db'.rows = db.rows) (hres : res ≠ .ok true) : Created env taskID stored res db db' :=
  .inl ⟨hres, fun k => by rw [hrows]⟩

theorem statusOf_commit_insert {columns : TaskColumns}
    (h : Db.exec jsonb (env (.txInsertTask columns)) i (.txInsertTask columns) (db.begin i) = some (some true, db')) :
    db.rows.get? columns.taskID = none ∧ Db.statusOf (db'.commit i) columns.taskID = some .pending ∧
      db'.rows = db.rows ∧ ∃ t, db'.tx i = some t ∧ t.failed = false := by
  rcases Db.statement_cases h with ⟨hnone, -⟩ | ⟨inserted, hrun, heq⟩
  · cases hnone
  · cases heq
    rcases Db.txInsertTask_cases hrun with ⟨hfalse, -⟩ | ⟨definition, -, hnew, -, rfl⟩
    · simp at hfalse
    refine ⟨?_, ?_, by simp [RowStore.insert, RowStore.write, RowStore.begin, RowStore.acquire], ?_⟩
    · rw [RowStore.get?_view] at hnew
      exact (Option.or_eq_none_iff.mp hnew).2
    · rw [Db.statusOf, RowStore.commit, RowStore.release, RowStore.get?_view]
      simp [RowStore.insert, RowStore.write, RowStore.begin, Table.get?_putAll, taskSchema, TaskColumns.row]
    · simp [RowStore.insert, RowStore.write, RowStore.begin]

theorem rows_txInsertTask {columns : TaskColumns} {res : Option Bool} (hres : res ≠ some true)
    (h : exec jsonb (env (.txInsertTask columns)) i (.txInsertTask columns) (db.begin i) = some (res, db')) :
    db'.rows = db.rows ∧ (res = some false → db' = db.begin i) := by
  rcases statement_cases h with ⟨rfl, rfl | rfl⟩ | ⟨inserted, hrun, rfl⟩
  · exact ⟨rfl, fun hsome => by simp at hsome⟩
  · exact ⟨rfl, fun hsome => by simp at hsome⟩
  rcases txInsertTask_cases hrun with ⟨rfl, rfl⟩ | ⟨-, rfl, -⟩
  · exact ⟨rfl, fun _ => rfl⟩
  · simp at hres

theorem created_commit {db₀ : Db} {taskID : Uuid} {t : RowStore.Tx taskSchema}
    (htx : db.tx i = some t) (hopen : t.failed = false) (hrows : db.rows = db₀.rows)
    (hnew : db₀.rows.get? taskID = none) (hinserted : statusOf (db.commit i) taskID = some .pending)
    (h : alone jsonb env i commitTx db = some (ok, db')) :
    Created env taskID .commit (if ok then .ok true else .error (.database "")) db₀ db' := by
  have hexec := (alone_run .commit db).symm.trans h
  simp only [exec, htx, all_some, hopen, Bool.false_eq_true, if_false] at hexec
  cases hout : (env .commit).outcome with
  | done | lost =>
    rw [hout] at hexec
    cases hexec
    exact .inr ⟨hnew, hinserted, by simp, by simp [Environment.outcome, hout]⟩
  | failed =>
    rw [hout] at hexec
    cases hexec
    exact .unstored hrows (by simp)

theorem created_createTaskTx {defBytes : Text}
    (h : alone jsonb env i (createTaskTx task defBytes) db = some (res, db')) :
    Created env task.taskID .commit res db db' := by
  rw [createTaskTx, alone_bind_iff] at h
  obtain ⟨began, db₁, hbegin, h⟩ := h
  rcases begin_cases ((alone_run .begin db).symm.trans hbegin) with ⟨rfl, rfl⟩ | ⟨rfl, rfl⟩
  swap
  · rw [if_neg (by simp), alone_pure] at h
    cases h
    exact .unstored rfl (by simp)
  rw [if_pos rfl, alone_bind_iff] at h
  obtain ⟨inserted, db₂, hinsert, h⟩ := h
  rw [alone_run] at hinsert
  cases inserted with
  | none =>
    obtain ⟨hrows, -⟩ := rows_txInsertTask (by simp) hinsert
    obtain ⟨rfl, hrows'⟩ := alone_rollbackWith h
    exact .unstored (hrows'.trans hrows) (by simp)
  | some fresh =>
    cases fresh with
    | false =>
      obtain ⟨hrows, hsame⟩ := rows_txInsertTask (by simp) hinsert
      obtain rfl := hsame rfl
      dsimp only at h
      rw [alone_bind_iff] at h
      obtain ⟨committed, db₃, hcommit, h⟩ := h
      refine .inl ⟨by cases committed <;> cases h <;> simp, ?_⟩
      · have hsame : ∀ k, db₃.rows.get? k = db.rows.get? k := by
          intro k
          rcases commit_cases ((alone_run .commit _).symm.trans hcommit) with ⟨-, rfl⟩ | rfl
          · rfl
          rw [commit, release, get?_view]
          simp [begin, Table.empty, Table.get?]
        cases committed <;> cases h <;> exact hsame
    | true =>
      obtain ⟨hnew, hpending, hrows, t, htx, hopen⟩ := statusOf_commit_insert hinsert
      dsimp only at h
      rw [alone_bind_iff] at h
      obtain ⟨referred, db₃, hrefs, h⟩ := h
      obtain ⟨hrows₃, hsame⟩ := alone_insertExecutionInputRefs hrefs
      cases referred with
      | false =>
        obtain ⟨rfl, hrows'⟩ := alone_rollbackWith h
        exact .unstored (hrows'.trans (hrows₃.trans hrows)) (by simp)
      | true =>
        obtain rfl := hsame rfl
        rw [if_pos rfl, alone_bind_iff] at h
        obtain ⟨bound, db₄, hbound, h⟩ := h
        obtain ⟨hrows₄, hsame⟩ := alone_insertBoundActionRun hbound
        cases bound with
        | error e =>
          obtain ⟨rfl, hrows'⟩ := alone_rollbackWith h
          exact .unstored (hrows'.trans (hrows₄.trans hrows)) (by simp)
        | ok u =>
          obtain rfl := hsame rfl
          dsimp only at h
          rw [alone_bind_iff] at h
          obtain ⟨committed, db₅, hcommit, h⟩ := h
          have hcreated := created_commit htx hopen hrows hnew hpending hcommit
          cases committed <;> cases h <;> exact hcreated

theorem created_insertTask {defBytes : Text} {res : Option Bool}
    (h : alone jsonb env i (run (.insertTask (task.columns defBytes))) db = some (res, db')) :
    Created env task.taskID (.insertTask (task.columns defBytes))
      (res.elim (.error (.database "")) .ok) db db' := by
  rw [alone_run, exec] at h
  have hstored : ∀ inserted w, db.insertTask jsonb (task.columns defBytes) = some (some (inserted, w)) →
      (inserted = false ∧ w = db) ∨
        (inserted = true ∧ db.rows.get? task.taskID = none ∧ w.statusOf task.taskID = some .pending) := by
    intro inserted w hrun
    rcases insertTask_cases hrun with hconflict | ⟨definition, hinserted, hnew, -, rfl⟩
    · exact .inl hconflict
    refine .inr ⟨hinserted, hnew, ?_⟩
    rw [statusOf, store, Table.get?_putAll]
    simp [NewTask.columns, taskSchema, TaskColumns.row]
  cases hout : (env (.insertTask (task.columns defBytes))).outcome with
  | failed =>
    rw [hout] at h
    cases h
    exact .unstored rfl (by simp)
  | done | lost =>
    rw [hout] at h
    obtain ⟨run, hrun, heq⟩ := map_eq_some_iff.mp h
    cases run with
    | none =>
      cases heq
      exact .unstored rfl (by simp)
    | some stored =>
      obtain ⟨inserted, w⟩ := stored
      cases heq
      rcases hstored inserted db' hrun with ⟨rfl, rfl⟩ | ⟨rfl, hnew, hpending⟩
      · exact .unstored rfl (by simp)
      · exact .inr ⟨hnew, hpending, by simp, by simp [Environment.outcome, hout]⟩

theorem created_createTaskWithExecutionInputRefs
    (h : alone jsonb env i (createTaskWithExecutionInputRefs task) db = some (res, db')) :
    Created env task.taskID task.stored res db db' := by
  unfold createTaskWithExecutionInputRefs createTask at h
  have hunmarshalled : ∀ e, alone jsonb env i (pure (.error e)) db = some (res, db') →
      Created env task.taskID task.stored res db db' := by
    intro e h
    rw [alone_pure] at h
    cases h
    exact .unstored rfl (by simp)
  split at h
  · next hrefs =>
    split at h
    · exact hunmarshalled _ h
    next defBytes hmarshal =>
    split at h
    · next hbound =>
      have hcommit : task.stored = .commit := if_neg fun hnone => by simp [hnone.2] at hbound
      rw [hcommit]
      have hcreated := created_createTaskTx h
      exact hcreated
    next hbound =>
    have hinsert : task.stored = .insertTask (task.columns defBytes) := by
      rw [NewTask.stored, if_pos ⟨hrefs, by simpa using hbound⟩, hmarshal, getD_some]
    rw [hinsert]
    rw [alone_bind_iff] at h
    obtain ⟨inserted, db₁, hrun, h⟩ := h
    have hcreated := created_insertTask hrun
    match inserted with
    | none =>
      cases h
      exact hcreated
    | some inserted =>
      cases h
      exact hcreated
  next hrefs =>
  split at h
  · exact hunmarshalled _ h
  have hcommit : task.stored = .commit := if_neg fun hnone => hrefs hnone.1
  rw [hcommit]
  exact created_createTaskTx h

end Alone

end Overture
