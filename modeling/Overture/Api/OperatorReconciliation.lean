import Overture.Coordinator.TypedFailure

/-!
# Operator reconciliation

An operator resolves a run whose effect is unknown. In one transaction the handler takes the advisory lock of the run,
looks for an event with the id of the request and for a terminal resolution, and inserts. Any number of requests and
other writes run at once.
-/

namespace Overture

open Interleave List ReconciliationEvent

structure OperatorRequest where
  tenantID : Text
  taskID : Uuid
  (actorID actorEmail : Text)
  requestID : Uuid
  resolution : Resolution
  reason : Text
  externalReference : Option (ExternalReferenceType × Text)
deriving DecidableEq

def OperatorRequest.run (q : OperatorRequest) : Text × Uuid := (q.tenantID, q.taskID)

def reconciliationRequestMatches (e : ReconciliationEvent) (q : OperatorRequest) : Bool :=
  e.actorID == q.actorID && e.resolution == some q.resolution && e.reason == q.reason &&
    e.externalReference == q.externalReference

def resolutionOf (g : GeneratedColumns) (q : OperatorRequest) (r : BoundRun) : ReconciliationEvent where
  id := g.id
  tenantID := r.tenantID
  taskID := r.taskID
  bindingID := r.bindingID
  contractHash := r.contractHash
  targetActionID := r.targetActionID
  targetVersionHash := r.targetVersionHash
  businessIdempotencyDigest := r.idempotencyDigest
  eventType := .operatorResolution
  resolution := some q.resolution
  actorType := .operator
  actorID := q.actorID
  actorEmail := if q.actorEmail = [] then none else some q.actorEmail
  reason := q.reason
  externalReference := q.externalReference
  targetHost := none
  sourceStatusCode := none
  operatorRequestID := some q.requestID
  createdAt := g.createdAt

/-! ## Statements -/

inductive ReconciliationOp where
  | lock (run : Text × Uuid)
  | selectRequest (run : Text × Uuid) (requestID : Uuid)
  | selectTerminal (run : Text × Uuid)
  | insert (q : OperatorRequest)
  | commit
  | rollback

inductive InsertReply where
  | row (e : ReconciliationEvent)
  | noRows
  | refused (why : AppendError)
  | failed

def ReconciliationOp.Res : ReconciliationOp → Type
  | lock _ | commit => Bool
  | selectRequest _ _ => Option (Option ReconciliationEvent)
  | selectTerminal _ => Option Bool
  | insert _ => InsertReply
  | rollback => Unit

def reconciliationSql : Interface := ⟨ReconciliationOp, ReconciliationOp.Res⟩

/-- The tables with the open transactions: who holds which advisory lock and which row each thread has inserted but not
committed. Kept for the proofs: the generated ids, what a thread found when it got its lock, what it recorded, and
whether one of its statements failed. -/
structure ReconciliationState where
  store : RunStore
  holder : Int → Option Nat
  pending : Nat → Option ReconciliationEvent
  issued : List Uuid
  entered : Nat → Option ReconciliationEvents
  recorded : Nat → Option ReconciliationEvent
  faulted : Nat → Bool

structure ReconciliationChoice where
  (fails done : Bool)
  generated : GeneratedColumns

namespace ReconciliationState

def history (s : ReconciliationState) (run : Text × Uuid) : List ReconciliationEvent := s.store.events.history run

def seen? (s : ReconciliationState) (i : Nat) (run : Text × Uuid) : Option (List ReconciliationEvent) :=
  (s.entered i).map fun t => t.history run

def fault (i : Nat) (s : ReconciliationState) : ReconciliationState :=
  { s with faulted := Function.update s.faulted i true }

def release (i : Nat) (s : ReconciliationState) : ReconciliationState :=
  { s with
    holder := fun k => if s.holder k = some i then none else s.holder k
    pending := Function.update s.pending i none }

def record (i : Nat) (e : ReconciliationEvent) (s : ReconciliationState) : ReconciliationState :=
  if h : s.store.events.Admits e then
    { s with
      store := ⟨s.store.tables, s.store.events.add e h⟩
      recorded := Function.update s.recorded i (some e) }
  else s

def publish (i : Nat) (s : ReconciliationState) : ReconciliationState :=
  match s.pending i with
  | none => s.release i
  | some e => (s.release i).record i e

end ReconciliationState

section

variable (lockKey : Text × Uuid → Int)

variable (c : ReconciliationChoice)

def lockStep (i : Nat) (run : Text × Uuid) (s : ReconciliationState) :
    Option (Bool × ReconciliationState) :=
  if c.fails = true then some (false, s.fault i)
  else if s.holder (lockKey run) = none ∨ s.holder (lockKey run) = some i then
    some (true,
      { s with
        holder := Function.update s.holder (lockKey run) (some i)
        entered := Function.update s.entered i (some s.store.events) })
  else none

def selectRequestStep (i : Nat) (run : Text × Uuid) (requestID : Uuid)
    (s : ReconciliationState) : Option (Option (Option ReconciliationEvent) × ReconciliationState) :=
  if c.fails = true then some (none, s.fault i)
  else some (some ((s.history run).find? fun e => e.operatorRequestID == some requestID), s)

def selectTerminalStep (i : Nat) (run : Text × Uuid) (s : ReconciliationState) :
    Option (Option Bool × ReconciliationState) :=
  if c.fails = true then some (none, s.fault i) else some (some (s.store.events.resolved run), s)

def insertStep (i : Nat) (q : OperatorRequest) (s : ReconciliationState) :
    Option (InsertReply × ReconciliationState) :=
  if c.fails = true then some (.failed, s.fault i)
  else
    match s.store.tables.runs.get? q.taskID with
    | none => some (.noRows, s)
    | some r =>
      if r.tenantID = q.tenantID ∧ s.store.events.observed q.run = true then
        if c.generated.id ∈ s.issued then none
        else
          match s.store.events.append s.store.tables (resolutionOf c.generated q r) with
          | .error why => some (.refused why, s)
          | .ok _ =>
            some (.row (resolutionOf c.generated q r),
              { s with
                pending := Function.update s.pending i (some (resolutionOf c.generated q r))
                issued := c.generated.id :: s.issued })
      else some (.noRows, s)

def commitStep (i : Nat) (s : ReconciliationState) : Option (Bool × ReconciliationState) :=
  if c.fails = true then some (false, (if c.done = true then s.publish i else s.release i).fault i)
  else some (true, s.publish i)

def reconciliationExec (i : Nat) :
    (o : ReconciliationOp) → ReconciliationState → Option (o.Res × ReconciliationState)
  | .lock run, s => lockStep lockKey c i run s
  | .selectRequest run requestID, s => selectRequestStep c i run requestID s
  | .selectTerminal run, s => selectTerminalStep c i run s
  | .insert q, s => insertStep c i q s
  | .commit, s => commitStep c i s
  | .rollback, s => some ((), s.release i)

end

/-! ## The handler -/

inductive ReconciliationAnswer where
  | created (e : ReconciliationEvent)
  | replayed (e : ReconciliationEvent)
  | conflict
  | notRequired
  | dbError
deriving DecidableEq

abbrev ReconciliationProg := Prog reconciliationSql OperatorRequest ReconciliationAnswer

def reconciliationStatement (o : ReconciliationOp) : Prog reconciliationSql OperatorRequest o.Res :=
  @Prog.perform reconciliationSql OperatorRequest o

def rolledBack (a : ReconciliationAnswer) : ReconciliationProg :=
  (reconciliationStatement .rollback).bind fun _ => .ret a

def committed (a : ReconciliationAnswer) : ReconciliationProg :=
  (reconciliationStatement .commit).bind fun
    | true => .ret a
    | false => .ret .dbError

def refusalAnswer : AppendError → ReconciliationAnswer
  | .terminalResolution | .duplicateKey => .conflict
  | .notRequired => .notRequired
  | .identityMismatch | .eligibilityNotEstablished | .checkViolation => .dbError

def insertResolution (q : OperatorRequest) : ReconciliationProg :=
  (reconciliationStatement (.insert q)).bind fun
    | .noRows => rolledBack .notRequired
    | .refused why => rolledBack (refusalAnswer why)
    | .failed => rolledBack .dbError
    | .row e => committed (.created e)

def resolveNew (q : OperatorRequest) : ReconciliationProg :=
  (reconciliationStatement (.selectTerminal q.run)).bind fun
    | none => rolledBack .dbError
    | some true => rolledBack .conflict
    | some false => insertResolution q

def answerRequest (q : OperatorRequest) : ReconciliationProg :=
  (reconciliationStatement (.selectRequest q.run q.requestID)).bind fun
    | none => rolledBack .dbError
    | some (some existing) =>
      if reconciliationRequestMatches existing q = true then committed (.replayed existing)
      else rolledBack .conflict
    | some none => resolveNew q

def appendOperatorReconciliation (q : OperatorRequest) : ReconciliationProg :=
  (reconciliationStatement (.lock q.run)).bind fun
    | false => rolledBack .dbError
    | true => answerRequest q

/-- The other writes. The guard takes the lock of the run that an observation is about; operators resolve
by requests alone. -/
def reconciliationEnv (lockKey : Text × Uuid → Int) : RunStep → ReconciliationState → Option ReconciliationState
  | .resolve _, _ => none
  | .observe fault g taskID report, s =>
    if g.id ∈ s.issued ∨ (s.store.tables.runs.get? taskID).any (fun r => s.holder (lockKey (r.tenantID, taskID)) != none)
      then none
    else
      some { s with store := (RunStep.observe fault g taskID report).apply s.store, issued := g.id :: s.issued }
  | step, s => some { s with store := step.apply s.store }

def reconciliationSystem (lockKey : Text × Uuid → Int) :
    System reconciliationSql OperatorRequest ReconciliationAnswer ReconciliationState where
  Choice := ReconciliationChoice
  exec := reconciliationExec lockKey
  body := appendOperatorReconciliation
  external _ := true
  forked _ _ _ s := s
  returned _ s := s
  Event := RunStep
  env := reconciliationEnv lockKey

def ReconciliationState.initial : ReconciliationState where
  store := .empty
  holder _ := none
  pending _ := none
  issued := []
  entered _ := none
  recorded _ := none
  faulted _ := false

/-! ## The reported state -/

inductive CurrentState where
  | reconciliationRequired
  | resolved (r : Resolution)
deriving DecidableEq

structure OperatorReconciliationState where
  required : Bool
  currentState : CurrentState
  history : List ReconciliationEvent

def scanResolution (kept : Option Resolution × CurrentState) (e : ReconciliationEvent) :
    Option Resolution × CurrentState :=
  match e.resolution with
  | none => kept
  | some r =>
    if r.terminal = true then (some r, kept.2)
    else if kept.1 = none then (none, .resolved r)
    else kept

def createdBefore (e e' : ReconciliationEvent) : Prop :=
  e.createdAt < e'.createdAt ∨ (e.createdAt = e'.createdAt ∧ e.id ≤ e'.id)

instance : DecidableRel createdBefore := fun e e' =>
  inferInstanceAs (Decidable (e.createdAt < e'.createdAt ∨ (e.createdAt = e'.createdAt ∧ e.id ≤ e'.id)))

def orderHistory (events : List ReconciliationEvent) : List ReconciliationEvent :=
  (events.filter (·.isObservation)).insertionSort createdBefore ++
    (events.filter (!·.isObservation)).insertionSort createdBefore

def loadOperatorReconciliationState (t : ReconciliationEvents) (run : Text × Uuid) :
    Option OperatorReconciliationState :=
  let history := orderHistory (t.history run)
  let kept := history.foldl scanResolution (none, .reconciliationRequired)
  let currentState := match kept.1 with
    | some r => .resolved r
    | none => kept.2
  if history.head?.any (·.isObservation) = true then
    some {
      required := currentState == .reconciliationRequired || currentState == .resolved .remainsUnknown
      currentState := currentState
      history := history }
  else none

/-- The terminal resolution if there is one, otherwise the latest other one, otherwise none. -/
def settledState (history : List ReconciliationEvent) : CurrentState :=
  match history.find? (·.isTerminal) with
  | some e => (e.resolution.map CurrentState.resolved).getD .reconciliationRequired
  | none => ((history.filterMap (·.resolution)).getLast?.map CurrentState.resolved).getD .reconciliationRequired

theorem mem_orderHistory {events : List ReconciliationEvent} {e : ReconciliationEvent} :
    e ∈ orderHistory events ↔ e ∈ events := by
  rw [orderHistory, mem_append, (perm_insertionSort createdBefore _).mem_iff,
    (perm_insertionSort createdBefore _).mem_iff, mem_filter, mem_filter]
  cases e.isObservation <;> simp

theorem head?_orderHistory (events : List ReconciliationEvent) :
    (orderHistory events).head?.any (·.isObservation) = events.any (·.isObservation) := by
  rw [Bool.eq_iff_iff, any_eq_true, Option.any_eq_true]
  constructor
  · rintro ⟨e, he, hobs⟩
    exact ⟨e, mem_orderHistory.mp (mem_of_mem_head? he), hobs⟩
  rintro ⟨e, he, hobs⟩
  -- the observations that there are come before everything else
  obtain ⟨first, hfirst⟩ : ∃ first, ((events.filter (·.isObservation)).insertionSort createdBefore).head? = some first := by
    rw [← Option.isSome_iff_exists, isSome_head?, ← length_pos_iff,
      (perm_insertionSort createdBefore _).length_eq, length_pos_iff_exists_mem]
    exact ⟨e, mem_filter.mpr ⟨he, hobs⟩⟩
  refine ⟨first, ?_, ?_⟩
  · rw [orderHistory, head?_append, hfirst]
    rfl
  · have hmem := (perm_insertionSort createdBefore _).mem_iff.mp (mem_of_mem_head? hfirst)
    exact (mem_filter.mp hmem).2

theorem scan_terminal {r : Resolution} {l : List ReconciliationEvent} {kept : Option Resolution × CurrentState}
    (hall : ∀ e ∈ l, e.isTerminal = true → e.resolution = some r)
    (h : kept.1 = some r ∨ (kept.1 = none ∧ ∃ e ∈ l, e.isTerminal = true)) :
    (l.foldl scanResolution kept).1 = some r := by
  induction l generalizing kept with
  | nil => simpa using h
  | cons e l ih =>
    refine ih (fun e' he' => hall e' (mem_cons_of_mem e he')) ?_
    have hhead := hall e mem_cons_self
    rw [scanResolution]
    cases hres : e.resolution with
    | none =>
      have hterm : e.isTerminal = false := by rw [isTerminal, hres]; rfl
      simpa [hterm] using h
    | some r' =>
      have hterm : e.isTerminal = r'.terminal := by rw [isTerminal, hres]; rfl
      rw [hterm, hres] at hhead
      dsimp only
      split
      · next ht => exact .inl (hhead ht)
      next ht =>
      rcases h with h | ⟨hnone, e', he', ht'⟩
      · simp [h]
      rcases mem_cons.mp he' with rfl | he'
      · exact absurd (hterm ▸ ht') ht
      rw [if_pos hnone]
      exact .inr ⟨rfl, e', he', ht'⟩

theorem resolution_eq_remainsUnknown {e : ReconciliationEvent} {r : Resolution} (h : e.isTerminal = false)
    (hres : e.resolution = some r) : r = .remainsUnknown := by
  cases r <;> simp [isTerminal, hres, Resolution.terminal] at h ⊢

theorem scan_open {l : List ReconciliationEvent} {state : CurrentState} (h : ∀ e ∈ l, e.isTerminal = false) :
    l.foldl scanResolution (none, state) =
      (none, if ∃ e ∈ l, e.resolution.isSome = true then .resolved .remainsUnknown else state) := by
  induction l generalizing state with
  | nil => simp
  | cons e l ih =>
    have hrest : ∀ e' ∈ l, e'.isTerminal = false := fun e' he' => h e' (mem_cons_of_mem e he')
    have hhead := h e mem_cons_self
    rw [foldl_cons, scanResolution]
    cases hres : e.resolution with
    | none =>
      rw [ih hrest]
      simp [hres]
    | some r =>
      obtain rfl := resolution_eq_remainsUnknown hhead hres
      have hopen : Resolution.remainsUnknown.terminal = false := rfl
      simp only [hopen, Bool.false_eq_true, if_false, if_true, ih hrest, Prod.mk.injEq, true_and]
      simp [hres]

theorem terminal_unique {t : ReconciliationEvents} {run : Text × Uuid} {e e' : ReconciliationEvent}
    (he : e ∈ t.history run) (he' : e' ∈ t.history run) (h : e.isTerminal = true) (h' : e'.isTerminal = true) :
    e = e' := by
  rw [ReconciliationEvents.mem_history] at he he'
  refine ReconciliationEvents.eq_of_clashes he.1 he'.1 ?_
  simp [clashes, he.2, he'.2, h, h']

theorem scan_orderHistory (t : ReconciliationEvents) (run : Text × Uuid) :
    let kept := (orderHistory (t.history run)).foldl scanResolution (none, .reconciliationRequired)
    (match kept.1 with
      | some r => CurrentState.resolved r
      | none => kept.2) = settledState (t.history run) := by
  intro kept
  rw [settledState]
  cases hfind : (t.history run).find? (·.isTerminal) with
  | some e =>
    have hmem := mem_of_find?_eq_some hfind
    have hterm : e.isTerminal = true := by simpa using find?_some hfind
    obtain ⟨r, hr, -⟩ := Option.any_eq_true _ _ |>.mp hterm
    have hkept : kept.1 = some r := by
      refine scan_terminal (fun e' he' hterm' => ?_) (.inr ⟨rfl, e, mem_orderHistory.mpr hmem, hterm⟩)
      rw [terminal_unique (mem_orderHistory.mp he') hmem hterm' hterm]
      exact hr
    rw [hkept]
    dsimp only
    rw [show e.resolution = some r from hr]
    rfl
  | none =>
    have hopen : ∀ e ∈ t.history run, e.isTerminal = false := by simpa using find?_eq_none.mp hfind
    have hkept : kept = _ := scan_open fun e he => hopen e (mem_orderHistory.mp he)
    rw [hkept]
    dsimp only
    cases hlast : ((t.history run).filterMap (·.resolution)).getLast? with
    | none =>
      rw [getLast?_eq_none_iff, filterMap_eq_nil_iff] at hlast
      rw [if_neg]
      · rfl
      rintro ⟨e, he, hsome⟩
      rw [hlast e (mem_orderHistory.mp he)] at hsome
      cases hsome
    | some r =>
      obtain ⟨e, he, hres⟩ := mem_filterMap.mp (mem_of_getLast? hlast)
      rw [if_pos ⟨e, mem_orderHistory.mpr he, by rw [hres]; rfl⟩, resolution_eq_remainsUnknown (hopen e he) hres]
      rfl

theorem load_eq (t : ReconciliationEvents) (run : Text × Uuid) :
    (loadOperatorReconciliationState t run).map (·.currentState) =
      if t.observed run = true then some (settledState (t.history run)) else none := by
  rw [loadOperatorReconciliationState]
  have hhead : (orderHistory (t.history run)).head?.any (·.isObservation) = t.observed run :=
    head?_orderHistory (t.history run)
  rw [hhead]
  split
  · exact congrArg some (scan_orderHistory t run)
  · rfl

end Overture
