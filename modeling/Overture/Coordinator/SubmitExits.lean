import Overture.Coordinator.Alone

/-!
# The error exits of a submission

Once its row is inserted a submission can still end in an error, and each of these exits
tries to mark the row failed. The marking admits a row that a runtime works on; at the exits
before the dispatch the row is pending, and there it stays.
-/

namespace Overture

open Interleave TaskUpdate Option

section Marking

variable {jsonb : Text → Option Text} {env : Environment} {i : Nat}

variable {taskID : Uuid} {reason : Text} {db db' : Db}

theorem alone_markFailed {details : Option TaskFailureDetails}
    (hdetails : isTypedReconciliationFailure details = false) {res : Result Unit}
    (h : alone jsonb env i (markFailedWithDetails taskID reason details) db = some (res, db')) :
    db'.statusOf taskID = (db.statusOf taskID).map fun status =>
      if env.outcome (.update (.markFailed taskID reason details)) ≠ .failed ∧
        taskAllowsRuntimeMutation status = true then .failed else status := by
  simp only [markFailedWithDetails, hdetails, Bool.false_eq_true, if_false, markFailedRecord] at h
  obtain ⟨rows, hrun, -⟩ := alone_transition h
  unfold Db.statusOf
  rcases alone_update rfl hrun with ⟨hfailed, -, rfl⟩ | ⟨hnot, hget, -, -⟩
  · cases db'.rows.get? taskID <;> simp [hfailed]
  rw [hget]
  cases hr : db.rows.get? taskID with
  | none => rfl
  | some r =>
    have hid : r.taskID = taskID := Table.key_of_get? hr
    cases hstatus : r.status <;>
      simp [TaskUpdate.admits, TaskUpdate.set, hid, hstatus, hnot, taskAllowsRuntimeMutation]

theorem alone_markFailed_pending {details : Option TaskFailureDetails}
    (hdetails : isTypedReconciliationFailure details = false) {res : Result Unit}
    (hpending : db.statusOf taskID = some .pending)
    (h : alone jsonb env i (markFailedWithDetails taskID reason details) db = some (res, db')) :
    db'.statusOf taskID = some .pending := by
  rw [alone_markFailed hdetails h, hpending]
  simp [taskAllowsRuntimeMutation]

theorem alone_failSubmission {message : Text} {operation rejectionType : String}
    {e : CoordError} {res : Except CoordError TaskRecord}
    (h : alone jsonb env i (failSubmission taskID reason operation rejectionType message e) db = some (res, db')) :
    ∃ marked, alone jsonb env i (markFailedWithDetails taskID reason
      (some (overtureTaskFailureDetails operation rejectionType message))) db = some (marked, db') := by
  rw [failSubmission, alone_bind_iff] at h
  obtain ⟨marked, db₁, hrun, hret⟩ := h
  simp only [alone_pure, some.injEq, Prod.mk.injEq] at hret
  exact ⟨marked, hret.2 ▸ hrun⟩

end Marking

def envelopeFailure (env : Environment) (taskID : Uuid) : TaskUpdate :=
  match env.answer (.buildPermissionEnvelope taskID) with
  | some message =>
    .markFailed taskID "task capability policy denied"
      (some (overtureTaskFailureDetails "submit" "capability_policy_denied" message))
  | none =>
    .markFailed taskID "task permission audit persistence failed"
      (some (overtureTaskFailureDetails "submit" "permission_audit_persistence_failed" []))

def LeadsToDispatch (env : Environment) (req : TaskSubmitRequest) (taskID : Uuid)
    (prepared : PreparedDefinition) : Prop :=
  ∃ runtime : RuntimeInfo,
    env.answer (.selectRuntime req.tenantID req.preferredRuntimeID) = some runtime ∧
    env.saves false (submissionPolicy req taskID prepared runtime) = true ∧
    (submissionPolicy req taskID prepared runtime).decision = .allowed ∧
    env.outcome (.update (.markDispatched taskID runtime.runtimeID runtime.endpoint)) = .done ∧
    env.outcome (.update (envelopeFailure env taskID)) ≠ .failed

section Exits

variable {jsonb : Text → Option Text} {env : Environment} {i : Nat} {db db' : Db} {taskID : Uuid}

theorem overture_not_typed (operation rejectionType : String) (message : Text) :
    isTypedReconciliationFailure (some (overtureTaskFailureDetails operation rejectionType message)) = false := by
  unfold isTypedReconciliationFailure
  dsimp only [overtureTaskFailureDetails]
  iterate 8 rw [Bool.false_and]

variable {reason message : Text} {operation rejectionType : String} {e : CoordError}
  {res : Except CoordError TaskRecord} {task : TaskRecord} {prepared : PreparedDefinition} {req : TaskSubmitRequest}

theorem statusOf_failSubmission_pending (hpending : db.statusOf taskID = some .pending)
    (h : alone jsonb env i (failSubmission taskID reason operation rejectionType message e) db = some (res, db')) :
    db'.statusOf taskID = some .pending := by
  obtain ⟨marked, hmarked⟩ := alone_failSubmission h
  exact alone_markFailed_pending (overture_not_typed _ _ _) hpending hmarked

theorem statusOf_failSubmission_dispatched (hdispatched : db.statusOf taskID = some .dispatched)
    (h : alone jsonb env i (failSubmission taskID reason operation rejectionType message e) db = some (res, db')) :
    ∃ status, db'.statusOf taskID = some status ∧ (status.Terminal ↔
      env.outcome (.update (.markFailed taskID reason
        (some (overtureTaskFailureDetails operation rejectionType message)))) ≠ .failed) := by
  obtain ⟨marked, hmarked⟩ := alone_failSubmission h
  refine ⟨_, by rw [alone_markFailed (overture_not_typed _ _ _) hmarked, hdispatched, map_some], ?_⟩
  by_cases hout : env.outcome (.update (.markFailed taskID reason
    (some (overtureTaskFailureDetails operation rejectionType message)))) = .failed <;>
    simp [hout, taskAllowsRuntimeMutation, TaskStatus.Terminal]

theorem statusOf_flagIrreversible {u : Unit}
    (h : alone jsonb env i (flagIrreversible task) db = some (u, db')) (k : Uuid) :
    db'.statusOf k = db.statusOf k := by
  unfold flagIrreversible at h
  split at h
  · rw [alone_bind_iff] at h
    obtain ⟨rows, db₁, hrun, hret⟩ := h
    cases hret
    rcases alone_update rfl hrun with ⟨-, -, rfl⟩ | ⟨-, hget, -, -⟩
    · rfl
    rw [Db.statusOf, hget, Db.statusOf, Option.map_map]
    congr 1
    funext r
    simp only [Function.comp_apply, TaskUpdate.set]
    split <;> rfl
  · simp only [alone_pure, Option.some.injEq, Prod.mk.injEq] at h
    rw [h.2]

theorem statusOf_launchSubmitted (hdispatched : db.statusOf task.taskID = some .dispatched)
    (h : alone jsonb env i (launchSubmitted task prepared) db = some (.error e, db')) :
    ∃ status, db'.statusOf task.taskID = some status ∧
      (status.Terminal ↔ env.outcome (.update (envelopeFailure env task.taskID)) ≠ .failed) := by
  rw [launchSubmitted, alone_bind, alone_writeAux, bind_some, alone_bind_iff] at h
  obtain ⟨u, db₁, hflag, hrest⟩ := h
  rw [alone_bind, alone_ask, bind_some] at hrest
  rw [← statusOf_flagIrreversible hflag] at hdispatched
  unfold envelopeFailure
  dsimp only at hrest
  split at hrest
  · next message hask =>
    rw [hask]
    exact statusOf_failSubmission_dispatched hdispatched hrest
  next hask =>
  rw [hask]
  rw [alone_bind, alone_writeAux, bind_some] at hrest
  split at hrest
  · rw [alone_bind, alone_spawn, bind_some, alone_pure] at hrest
    simp at hrest
  · exact statusOf_failSubmission_dispatched hdispatched hrest

theorem statusOf_dispatchSubmitted {runtime : RuntimeInfo}
    (hpending : db.statusOf task.taskID = some .pending)
    (h : alone jsonb env i (dispatchSubmitted task prepared runtime) db = some (.error e, db')) :
    ∃ status, db'.statusOf task.taskID = some status ∧ (status.Terminal ↔
      env.outcome (.update (.markDispatched task.taskID runtime.runtimeID runtime.endpoint)) = .done ∧
        env.outcome (.update (envelopeFailure env task.taskID)) ≠ .failed) := by
  obtain ⟨r, hr, hstatus⟩ := Option.map_eq_some_iff.mp hpending
  have hid : r.taskID = task.taskID := Table.key_of_get? hr
  rw [dispatchSubmitted, alone_bind_iff] at h
  obtain ⟨marked, db₁, hmark, hrest⟩ := h
  obtain ⟨rows, hrun, rfl⟩ := alone_transition hmark
  have hallows : (TaskUpdate.markDispatched task.taskID runtime.runtimeID runtime.endpoint).admits r = true := by
    simp [TaskUpdate.admits, hid, hstatus]
  rcases alone_update rfl hrun with ⟨hfailed, rfl, rfl⟩ | ⟨hnot, hget, hdone, hlost⟩
  · -- the statement failed and the row is still pending
    cases hrest
    exact ⟨.pending, hpending, by simp [TaskStatus.Terminal, hfailed]⟩
  have hdispatched : db₁.statusOf task.taskID = some .dispatched := by
    rw [Db.statusOf, hget, hr]
    simp [hallows, TaskUpdate.set]
  cases hout : env.outcome (.update (.markDispatched task.taskID runtime.runtimeID runtime.endpoint)) with
  | failed => exact absurd hout hnot
  | lost =>
    -- the row is dispatched but the caller is told that it is not
    rw [hlost hout] at hrest
    cases hrest
    exact ⟨.dispatched, hdispatched, by simp [TaskStatus.Terminal]⟩
  | done =>
    obtain ⟨r₁, rest, hrows⟩ : ∃ r₁ rest, rows = some (r₁ :: rest) := by
      rw [hdone hout]
      have hmem : r ∈ db.rows.rows.filter (TaskUpdate.admits _) :=
        List.mem_filter.mpr ⟨Table.mem_of_get? hr, hallows⟩
      cases hfilter : db.rows.rows.filter
          (TaskUpdate.markDispatched task.taskID runtime.runtimeID runtime.endpoint).admits with
      | nil => rw [hfilter] at hmem; simp at hmem
      | cons r₁ rest => exact ⟨_, _, rfl⟩
    rw [hrows] at hrest
    simp only [taskTransitionResult] at hrest
    obtain ⟨status, hstatus', hiff⟩ := statusOf_launchSubmitted (by exact hdispatched) hrest
    exact ⟨status, hstatus', by simpa using hiff⟩

theorem statusOf_markApprovalRequired {res : Result Unit}
    (hpending : db.statusOf taskID = some .pending)
    (h : alone jsonb env i (markApprovalRequired taskID reason) db = some (res, db')) :
    ∃ status, db'.statusOf taskID = some status ∧ ¬ status.Terminal := by
  obtain ⟨r, hr, hstatus⟩ := Option.map_eq_some_iff.mp hpending
  have hid : r.taskID = taskID := Table.key_of_get? hr
  obtain ⟨rows, hrun, -⟩ := alone_transition h
  rcases alone_update rfl hrun with ⟨-, -, rfl⟩ | ⟨-, hget, -, -⟩
  · exact ⟨.pending, hpending, by simp [TaskStatus.Terminal]⟩
  refine ⟨.approvalRequired, ?_, by simp [TaskStatus.Terminal]⟩
  rw [Db.statusOf, hget, hr]
  simp [TaskUpdate.admits, TaskUpdate.set, hid, hstatus]

theorem statusOf_startSubmitted (hpending : db.statusOf taskID = some .pending)
    (h : alone jsonb env i (startSubmitted req taskID prepared) db = some (.error e, db')) :
    ∃ status, db'.statusOf taskID = some status ∧ (status.Terminal ↔ LeadsToDispatch env req taskID prepared) := by
  have hstuck : db'.statusOf taskID = some .pending → ¬ LeadsToDispatch env req taskID prepared →
      ∃ status, db'.statusOf taskID = some status ∧
        (status.Terminal ↔ LeadsToDispatch env req taskID prepared) :=
    fun hdb' hnot => ⟨.pending, hdb', by simp [TaskStatus.Terminal, hnot]⟩
  rw [startSubmitted, alone_bind, alone_ask, bind_some] at h
  dsimp only at h
  split at h
  · next hask =>
    exact hstuck (statusOf_failSubmission_pending hpending h) fun ⟨_, hruntime, _⟩ => by
      simp [hask] at hruntime
  next runtime hask =>
  rw [alone_bind, alone_savePolicyDecision, bind_some] at h
  dsimp only at h
  split at h
  · next hsaved =>
    rw [alone_bind, alone_writeAux, bind_some, alone_bind, alone_writeAux, bind_some] at h
    have hleads : LeadsToDispatch env req taskID prepared ↔
        (submissionPolicy req taskID prepared runtime).decision = .allowed ∧
        env.outcome (.update (.markDispatched taskID runtime.runtimeID runtime.endpoint)) = .done ∧
        env.outcome (.update (envelopeFailure env taskID)) ≠ .failed := by
      constructor
      · rintro ⟨runtime', hask', -, hrest⟩
        cases hask.symm.trans hask'
        exact hrest
      · exact fun hrest => ⟨runtime, hask, hsaved, hrest⟩
    split at h
    · next hdecision =>
      exact hstuck (statusOf_failSubmission_pending hpending h) fun hl => by
        simp [hleads.mp hl |>.1] at hdecision
    · next hdecision =>
      have hnot : ¬ LeadsToDispatch env req taskID prepared := fun hl => by
        simp [hleads.mp hl |>.1] at hdecision
      rw [alone_bind, alone_writeAux, bind_some, alone_bind_iff] at h
      obtain ⟨marked, db₁, hmark, hrest⟩ := h
      obtain ⟨status, hstatus, hterm⟩ := statusOf_markApprovalRequired hpending hmark
      obtain rfl : db₁ = db' := by
        split at hrest <;> rw [alone_pure] at hrest <;> cases hrest
        rfl
      exact ⟨status, hstatus, by simp [hterm, hnot]⟩
    next hdecision =>
    obtain ⟨status, hstatus, hiff⟩ := statusOf_dispatchSubmitted hpending h
    refine ⟨status, hstatus, hiff.trans ?_⟩
    rw [hleads]
    exact ⟨fun hrest => ⟨hdecision, hrest⟩, fun hrest => hrest.2⟩
  · next hsaved =>
    refine hstuck (statusOf_failSubmission_pending hpending h) fun ⟨runtime', hask', hsaved', _⟩ => ?_
    cases hask.symm.trans hask'
    exact hsaved hsaved'

def LooksUp {ε : Type} (res : Except ε TaskRecord) (db db' : Db) : Prop :=
  db' = db ∧ ∀ task, res = .ok task → db.statusOf task.taskID = some task.status

theorem alone_getTaskBy {q : TaskQuery} {res : Result TaskRecord}
    (h : alone jsonb env i (getTaskBy q) db = some (res, db')) : LooksUp res db db' := by
  rw [getTaskBy, alone_bind_iff] at h
  obtain ⟨rows, db₁, hselect, h⟩ := h
  rw [alone_run] at hselect
  rcases Db.autocommit_cases hselect with ⟨rfl, rfl⟩ | ⟨found, w, hfound, rfl, hrows⟩
  · cases h
    exact ⟨rfl, by simp⟩
  cases hfound
  rcases hrows with rfl | rfl
  swap
  · cases h
    exact ⟨rfl, by simp⟩
  cases hfilter : db.rows.rows.filter q.admits with
  | nil =>
    rw [hfilter] at h
    cases h
    exact ⟨rfl, by simp⟩
  | cons r rest =>
    rw [hfilter] at h
    cases h
    refine ⟨rfl, ?_⟩
    rintro task ⟨⟩
    have hmem : r ∈ db.rows.rows := (List.mem_filter.mp (hfilter ▸ List.mem_cons_self)).1
    have hget : db.rows.get? r.taskID = some r := Table.get?_of_mem hmem
    simp [Db.statusOf, hget]

theorem alone_existingTask {tenantID key : Text}
    (h : alone jsonb env i (existingTask tenantID key) db = some (res, db')) : LooksUp res db db' := by
  rw [existingTask, alone_bind_iff] at h
  obtain ⟨found, db₁, hfound, h⟩ := h
  obtain ⟨rfl, hstatus⟩ := alone_getTaskBy hfound
  match found with
  | .ok existing =>
    cases h
    exact ⟨rfl, by rintro task ⟨⟩; exact hstatus _ rfl⟩
  | .error .noRows | .error .transitionRejected | .error .incompleteBoundAction | .error (.marshal _)
  | .error (.database _) =>
    cases h
    exact ⟨rfl, by simp⟩

theorem alone_repeatedSubmission {key : Text}
    (h : alone jsonb env i (repeatedSubmission req key) db = some (res, db')) : LooksUp res db db' := by
  have hrefused : ∀ e, alone jsonb env i (pure (.error e)) db = some (res, db') → LooksUp res db db' := by
    intro e h
    rw [alone_pure] at h
    cases h
    exact ⟨rfl, by simp⟩
  unfold repeatedSubmission at h
  split at h
  · exact alone_existingTask h
  rw [alone_bind, alone_ask, bind_some] at h
  dsimp only at h
  split at h
  · exact hrefused _ h
  · exact hrefused _ h
  split at h
  · exact alone_existingTask h
  · exact hrefused _ h

theorem failSubmission_ne_ok :
    alone jsonb env i (failSubmission taskID reason operation rejectionType message e) db ≠ some (.ok task, db') := by
  intro h
  rw [failSubmission, alone_bind_iff] at h
  obtain ⟨_, _, -, h⟩ := h
  cases h

theorem taskID_launchSubmitted {task' : TaskRecord}
    (h : alone jsonb env i (launchSubmitted task prepared) db = some (.ok task', db')) : task' = task := by
  rw [launchSubmitted, alone_bind, alone_writeAux, bind_some, alone_bind_iff] at h
  obtain ⟨-, db₁, -, h⟩ := h
  rw [alone_bind, alone_ask, bind_some] at h
  dsimp only at h
  split at h
  · exact absurd h failSubmission_ne_ok
  rw [alone_bind, alone_writeAux, bind_some] at h
  split at h
  · cases h
    rfl
  · exact absurd h failSubmission_ne_ok

theorem taskID_startSubmitted (h : alone jsonb env i (startSubmitted req taskID prepared) db = some (.ok task, db')) :
    task.taskID = taskID := by
  rw [startSubmitted, alone_bind, alone_ask, bind_some] at h
  dsimp only at h
  split at h
  · exact absurd h failSubmission_ne_ok
  rw [alone_bind, alone_savePolicyDecision, bind_some] at h
  dsimp only at h
  split at h
  swap
  · exact absurd h failSubmission_ne_ok
  rw [alone_bind, alone_writeAux, bind_some, alone_bind, alone_writeAux, bind_some] at h
  split at h
  · exact absurd h failSubmission_ne_ok
  · rw [alone_bind, alone_writeAux, bind_some, alone_bind_iff] at h
    obtain ⟨marked, db₁, -, h⟩ := h
    cases marked <;> cases h
    rfl
  rw [dispatchSubmitted, alone_bind_iff] at h
  obtain ⟨marked, db₁, -, h⟩ := h
  cases marked with
  | error e => cases h
  | ok u => rw [taskID_launchSubmitted h]; rfl

def Environment.taskIDOf (env : Environment) (req : TaskSubmitRequest) : Uuid :=
  if req.taskID == Uuid.nil then env.answer .newUuid else req.taskID

theorem alone_newTaskID (req : TaskSubmitRequest) :
    alone jsonb env i (newTaskID req) db = some (env.taskIDOf req, db) := by
  unfold newTaskID Environment.taskIDOf
  cases req.taskID == Uuid.nil <;> rfl

theorem statusOf_submit {status : TaskStatus}
    (hstatus : db.statusOf task.taskID = some status)
    (h : alone jsonb env i (submit req) db = some (.ok task, db')) : task.status = status := by
  rw [submit, alone_bind, alone_newTaskID, bind_some, alone_bind, alone_ask, bind_some] at h
  dsimp only at h
  split at h
  · cases h
  rw [alone_bind_iff] at h
  obtain ⟨created, db₁, hcreate, h⟩ := h
  have hcreated := created_createTaskWithExecutionInputRefs hcreate
  match created with
  | .error e => cases h
  | .ok false =>
    rcases hcreated with ⟨-, hsame⟩ | ⟨-, -, hne, -⟩
    · have hfound := (alone_repeatedSubmission h).2 task rfl
      rw [Db.statusOf, hsame] at hfound
      exact some.inj (hfound.symm.trans hstatus)
    · exact absurd rfl hne
  | .ok true =>
    rcases hcreated with ⟨hne, -⟩ | ⟨hnew, -⟩
    · exact absurd rfl hne
    rw [taskID_startSubmitted h] at hstatus
    have hnone : db.rows.get? (env.taskIDOf req) = none := hnew
    simp [Db.statusOf, hnone] at hstatus

def Settled (jsonb : Text → Option Text) (taskID : Uuid) (db : Db) : Prop :=
  (∃ status, db.statusOf taskID = some status ∧ status.Terminal) ∧
  ∀ env j req task db', alone jsonb env j (submit req) db = some (.ok task, db') → task.taskID = taskID →
    task.status.Terminal

theorem settled_iff {status : TaskStatus} (h : db.statusOf taskID = some status) :
    Settled jsonb taskID db ↔ status.Terminal := by
  constructor
  · rintro ⟨⟨status', h', hterminal⟩, -⟩
    cases h.symm.trans h'
    exact hterminal
  rintro hterminal
  refine ⟨⟨status, h, hterminal⟩, ?_⟩
  rintro env j req task db' hsubmit rfl
  rwa [statusOf_submit h hsubmit]

/-- What has to happen for an error to come after the dispatch: the insertion is acknowledged, and then the
submission gets dispatched and its marking as failed takes effect. -/
def DispatchedBeforeError (env : Environment) (req : TaskSubmitRequest) : Prop :=
  ∃ prepared, env.answer (.prepare req (env.taskIDOf req)) = some prepared ∧
    env.outcome (submittedTask req (env.taskIDOf req) prepared).stored = .done ∧
    LeadsToDispatch env req (env.taskIDOf req) prepared

theorem settled_submit
    (hnew : db.rows.get? (env.taskIDOf req) = none) (hstored : db'.rows.get? (env.taskIDOf req) ≠ none)
    (h : alone jsonb env i (submit req) db = some (.error e, db')) :
    Settled jsonb (env.taskIDOf req) db' ↔ DispatchedBeforeError env req := by
  rw [submit, alone_bind, alone_newTaskID, bind_some, alone_bind, alone_ask, bind_some] at h
  dsimp only at h
  split at h
  · cases h
    exact absurd hnew hstored
  next prepared hprepare =>
  have hiff : DispatchedBeforeError env req ↔
      env.outcome (submittedTask req (env.taskIDOf req) prepared).stored = .done ∧
      LeadsToDispatch env req (env.taskIDOf req) prepared := by
    constructor
    · rintro ⟨prepared', hprepare', hrest⟩
      cases hprepare.symm.trans hprepare'
      exact hrest
    · exact fun hrest => ⟨prepared, hprepare, hrest⟩
  rw [alone_bind_iff] at h
  obtain ⟨created, db₁, hcreate, h⟩ := h
  rcases created_createTaskWithExecutionInputRefs hcreate with ⟨hne, hsame⟩ | ⟨-, hrow, hne, hdone⟩
  · -- nothing was inserted, so nothing is stored in the end
    refine absurd ?_ hstored
    match created with
    | .error e =>
      cases h
      exact (hsame _).trans hnew
    | .ok false => rw [(alone_repeatedSubmission h).1, hsame, hnew]
    | .ok true => exact absurd rfl hne
  have hpending : db₁.statusOf (env.taskIDOf req) = some .pending := hrow
  match created with
  | .error e =>
    cases h
    rw [settled_iff hpending, hiff]
    have hlost : env.outcome (submittedTask req (env.taskIDOf req) prepared).stored ≠ .done :=
      fun hout => by simpa using hdone.mpr hout
    simp [hlost, TaskStatus.Terminal]
  | .ok false => exact absurd rfl hne
  | .ok true =>
    obtain ⟨status, hstatus, hterminal⟩ := statusOf_startSubmitted hpending h
    rw [settled_iff hstatus, hiff, hterminal]
    exact ⟨fun hleads => ⟨hdone.mp rfl, hleads⟩, fun hleads => hleads.2⟩

theorem unsettled_submitDemo {failureReason : Text}
    (hnew : db.rows.get? (env.taskIDOf req) = none) (hstored : db'.rows.get? (env.taskIDOf req) ≠ none)
    (h : alone jsonb env i (submitDemoSimulatedFailure req failureReason) db = some (.error e, db')) :
    ¬ Settled jsonb (env.taskIDOf req) db' := by
  have hunsettled : db'.statusOf (env.taskIDOf req) = some .pending → ¬ Settled jsonb (env.taskIDOf req) db' := by
    intro hpending
    rw [settled_iff hpending]
    simp [TaskStatus.Terminal]
  rw [submitDemoSimulatedFailure, alone_bind, alone_newTaskID, bind_some, alone_bind, alone_ask,
    bind_some] at h
  dsimp only at h
  split at h
  · cases h
    exact absurd hnew hstored
  next prepared hprepare =>
  rw [alone_bind_iff] at h
  obtain ⟨created, db₁, hcreate, h⟩ := h
  rcases created_createTaskWithExecutionInputRefs hcreate with ⟨hne, hsame⟩ | ⟨-, hrow, hne, -⟩
  · refine absurd ?_ hstored
    match created with
    | .error e =>
      cases h
      exact (hsame _).trans hnew
    | .ok false => rw [(alone_existingTask h).1, hsame, hnew]
    | .ok true => exact absurd rfl hne
  have hpending : db₁.statusOf (env.taskIDOf req) = some .pending := hrow
  match created with
  | .error e =>
    cases h
    exact hunsettled hpending
  | .ok false => exact absurd rfl hne
  | .ok true =>
    dsimp only at h
    rw [alone_bind_iff] at h
    obtain ⟨marked, db₂, hmark, h⟩ := h
    apply hunsettled
    have hstill := alone_markFailed_pending (overture_not_typed _ _ _) hpending hmark
    cases marked <;> cases h
    exact hstill

end Exits

/-- An error after the insertion leaves the task settled exactly when it comes after the dispatch; the simulated
failure never settles it. -/
theorem submission_error_settled_iff (jsonb : Text → Option Text) (env : Environment) (i : Nat) (db db' : Db)
    (req : TaskSubmitRequest) (hnew : db.rows.get? (env.taskIDOf req) = none)
    (hstored : db'.rows.get? (env.taskIDOf req) ≠ none) :
    (∀ e, alone jsonb env i (submit req) db = some (.error e, db') →
      (Settled jsonb (env.taskIDOf req) db' ↔ DispatchedBeforeError env req)) ∧
    (∀ failureReason e, alone jsonb env i (submitDemoSimulatedFailure req failureReason) db = some (.error e, db') →
      ¬ Settled jsonb (env.taskIDOf req) db') :=
  ⟨fun _ h => settled_submit hnew hstored h, fun _ _ h => unsettled_submitDemo hnew hstored h⟩

def plainAnswer (prepared : PreparedDefinition) (runtime : Option RuntimeInfo) : (q : Ask) → q.Answer
  | .newUuid => (1 : Uuid)
  | .prepare _ _ => some prepared
  | .selectRuntime _ _ => runtime
  | .boundActionRun _ _ => (.error .noRows : Result BoundActionRunIdentity)
  | .buildPermissionEnvelope _ | .verifyArtifacts _ | .verifyStepReceipts _ => (none : Option Text)
  | .rehydrateInputs _ definition => (.ok definition : Except Text Text)
  | .governance _ => (([], []) : Text × List Text)
  | .maxRecoveryAttempts => (3 : Nat)
  | .receive _ => DispatchReply.unreachable
  | .writeJournalPending _ | .markJournalCommitted _ _ | .send _ _ => ()
  | .savePolicyDecision _ _ | .hydratePermissionEnvelope _ | .endpointRoutable _ | .governedDecisions _
  | .validateCallback _ => true
  | .journalHasCommitted _ _ => false

def plainDefinition : PreparedDefinition where
  normalizedDefinition := "1"
  protectedDefinition := "1"
  inputRefs := 0
  agentID := []
  requiredCapabilities := []

def plainRequest : TaskSubmitRequest where
  taskID := 1
  tenantID := "t"
  taskDefinition := "1"
  idempotencyKey := "k"
  deadlineAt := none
  preferredRuntimeID := []
  boundAction := none

def plainEnvironment (runtime : Option RuntimeInfo) (failing : Option AuxTable) : Environment := fun o =>
  { outcome := match o with
      | .write table => if failing = some table then .failed else .done
      | _ => .done
    now := 0
    answer := plainAnswer plainDefinition runtime }

def errorOf : Except CoordError TaskRecord → Option CoordError
  | .error e => some e
  | .ok _ => none

theorem submission_error_settled_iff_envelope :
    ∃ e db', alone some (plainEnvironment (some ⟨"r".toList, []⟩) (some .permissionEnvelopes)) 0
        (submit plainRequest) .empty = some (.error e, db') ∧ Settled some 1 db' := by
  have hrun : (alone some (plainEnvironment (some ⟨"r", []⟩) (some .permissionEnvelopes)) 0
      (submit plainRequest) .empty).map (fun p => (errorOf p.1, p.2.statusOf 1)) =
      some (some .permissionNotPersisted, some .failed) := by decide +kernel
  obtain ⟨⟨res, db'⟩, hsubmit, hrest⟩ := map_eq_some_iff.mp hrun
  simp only [Prod.mk.injEq] at hrest
  obtain ⟨hres, hstatus⟩ := hrest
  match res with
  | .ok _ => simp [errorOf] at hres
  | .error e =>
    refine ⟨e, db', hsubmit, ?_⟩
    have hstored : db'.rows.get? 1 ≠ none := fun hnone => by simp [Db.statusOf, hnone] at hstatus
    refine ((submission_error_settled_iff some _ 0 .empty db' plainRequest rfl hstored).1 e hsubmit).mpr
      ⟨plainDefinition, rfl, by decide +kernel, ⟨"r", []⟩, rfl, rfl, ?_, ?_, ?_⟩
    all_goals decide +kernel

/-- Without a runtime the submission fails and its task stays pending; the same submission, made again, returns
it without an error. -/
theorem submit_without_runtime_left_pending :
    ∃ e db' task db'',
      alone some (plainEnvironment none none) 0 (submit plainRequest) .empty = some (.error e, db') ∧
      db'.statusOf 1 = some .pending ∧
      alone some (plainEnvironment none none) 0 (submit plainRequest) db' = some (.ok task, db'') ∧
      task.taskID = 1 ∧ task.status = .pending := by
  have hrun : (alone some (plainEnvironment none none) 0 (submit plainRequest) .empty).map (fun p =>
      (errorOf p.1, p.2.statusOf 1,
        (alone some (plainEnvironment none none) 0 (submit plainRequest) p.2).map fun p' =>
          p'.1.toOption.map fun task => (task.taskID, task.status))) =
      some (some .noHealthyRuntime, some .pending, some (some (1, .pending))) := by decide +kernel
  obtain ⟨⟨res, db'⟩, hfirst, hrest⟩ := map_eq_some_iff.mp hrun
  simp only [Prod.mk.injEq] at hrest
  obtain ⟨hres, hstatus, hagain⟩ := hrest
  obtain ⟨⟨res', db''⟩, hsecond, htask⟩ := map_eq_some_iff.mp hagain
  match res, res' with
  | .ok _, _ => simp [errorOf] at hres
  | .error e, .error _ => simp [Except.toOption] at htask
  | .error e, .ok task =>
    simp only [Except.toOption, map_some, some.injEq, Prod.mk.injEq] at htask
    exact ⟨e, db', task, db'', hfirst, hstatus, hsecond, htask.1, htask.2⟩

end Overture
